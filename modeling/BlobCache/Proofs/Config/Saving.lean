import Mathlib.Algebra.Group.Nat.Defs
import BlobCache.Config.File
import BlobCache.Proofs.Action
import BlobCache.Proofs.Config.Document
import BlobCache.Proofs.Disk.Making
import BlobCache.Proofs.Text.Utf8

/-!
# Saved settings are loaded again

What is loaded from a file depends on its bytes alone (`Settings.ofBytes`, `Settings.load_of_file`),
and the bytes that are saved are those of a document that reads back as the settings. Saving first
makes the folder of the file and then looks whether there is a document for the settings, so a
number that has none leaves new folders at most.

`Settings.load_save` puts this together for all settings, disks and paths where a file can be
written; `Settings.writable_of_save` says that saving works nowhere else.
-/

namespace BlobCache.Settings

variable {d : Disk} {p q : Path} {loc : Location} {s : Settings}

/-! ### Loading -/

/-- The settings in the bytes of a file. -/
def ofBytes (p : Path) (data : Bytes) : Except CacheError Settings :=
  match Utf8.decode data with
  | .error _ => .error
      (.io ("reading config from " ++ p.text) (.other "stream did not contain valid UTF-8"))
  | .ok text =>
    match ofText? text with
    | some settings => .ok settings
    | none => .error (.configInvalid p "TOML parse error")

/-- What is loaded from a file depends on its bytes alone. -/
theorem load_of_file (h : d.find p = .ok loc) {data : Bytes}
    (hn : d.node? loc = some (.file data)) : load p d = ⟨ofBytes p data, d, []⟩ := by
  have hthere : d.contains p = true := by
    rw [Disk.contains, Disk.stat_of_find h hn]
    rfl
  rw [load, Action.bind_apply, Action.get_apply]
  dsimp only
  rw [if_pos hthere, loadFile, Action.bind_apply, Action.get_apply]
  dsimp only
  rw [Action.bind_apply, Action.ofExcept_apply, Disk.readFile_of_find h hn, ofBytes]
  dsimp only [Except.mapError]
  cases Utf8.decode data with
  | error fault => rfl
  | ok text =>
    dsimp only
    cases ofText? text with
    | none => rfl
    | some settings => rfl

private theorem greatestNumber_eq : greatestNumber = 2 ^ 63 - 1 := by
  simp [greatestNumber, Toml.integerBound]

/-- The default settings have a written form. -/
theorem default_le_greatestNumber : ({} : Settings).capacityHint ≤ greatestNumber := by
  decide

/-- The bytes of a document read back as the settings that it was written for. -/
theorem ofBytes_lines (p : Path) (h : s.capacityHint ≤ greatestNumber) :
    ofBytes p (Utf8.encode s.lines) = .ok s := by
  rw [ofBytes, Utf8.decode_encode]
  dsimp only
  rw [ofText?_lines h]

/-! ### Saving -/

private theorem makeParent_apply (h : p.parent? = some q) (d : Disk) : makeParent p d =
    ⟨(d.makeFolders q).2.mapError (.configFolder q), (d.makeFolders q).1, []⟩ := by
  rw [makeParent, h]
  dsimp only
  rw [Action.bind_apply, Action.get_apply]
  dsimp only
  rw [Action.bind_apply, Action.set_apply, Action.ofExcept_apply]
  rfl

/-- Making the folder of a file makes folders at most. -/
private theorem altersFolders_makeParent (p : Path) (d : Disk) :
    d.AltersFolders (makeParent p d).state := by
  cases hparent : p.parent? with
  | none =>
    rw [makeParent, hparent]
    exact .refl d
  | some q =>
    rw [makeParent_apply hparent]
    exact d.altersFolders_makeFolders q

/-- What is done when the folder of the file is there. -/
def writeDocument (p : Path) (s : Settings) : Action Disk Unit := do
  let text ← Action.ofExcept s.text
  let unwritten (e : IoError) := CacheError.io ("writing config to " ++ p.text) e
  let written := (← Action.get).writeFile p (Utf8.encode text.toList)
  Action.set (← Action.ofExcept (written.mapError unwritten))
  Action.log .info ("Configuration saved to " ++ p.text)

theorem save_eq (p : Path) (s : Settings) :
    save p s = makeParent p >>= fun _ => writeDocument p s :=
  rfl

/-- Settings without a written form are not written. -/
private theorem writeDocument_of_greater (h : greatestNumber < s.capacityHint) (p : Path)
    (d : Disk) :
    writeDocument p s d =
      ⟨.error (.configUnwritable "out-of-range value for u64 type"), d, []⟩ := by
  rw [writeDocument, text, if_neg (Nat.not_le.mpr h)]
  rfl

/-- Settings with a written form are written as far as the disk allows it. -/
private theorem writeDocument_apply (h : s.capacityHint ≤ greatestNumber) (p : Path) (d : Disk) :
    writeDocument p s d =
      match d.writeFile p (Utf8.encode s.lines) with
      | .ok d' => ⟨.ok (), d', [⟨.info, "Configuration saved to " ++ p.text⟩]⟩
      | .error e => ⟨.error (.io ("writing config to " ++ p.text) e), d, []⟩ := by
  rw [writeDocument, text, if_pos h, Action.bind_apply, Action.ofExcept_apply]
  dsimp only
  rw [Action.bind_apply, Action.get_apply, String.toList_ofList]
  dsimp only
  cases d.writeFile p (Utf8.encode s.lines) with
  | ok d' => rfl
  | error e => rfl

/-- Saving needs nothing but a place for the file. -/
theorem writable_of_save (hstart : d.HasFolder (d.start p)) (h : (save p s d).result = .ok ()) :
    d.Writable p := by
  rw [save_eq] at h
  obtain ⟨-, -, hwrite⟩ := Action.result_bind_eq_ok_iff.mp h
  have halters := altersFolders_makeParent p d
  generalize (makeParent p d).state = made at hwrite halters
  by_cases hs : s.capacityHint ≤ greatestNumber
  · rw [writeDocument_apply hs] at hwrite
    cases hfile : made.writeFile p (Utf8.encode s.lines) with
    | ok d' =>
      obtain ⟨loc, hfind, hloc⟩ := Disk.find_of_writeFile hfile
      exact ⟨hstart, made, loc, halters, hfind, hloc⟩
    | error e =>
      rw [hfile] at hwrite
      cases hwrite
  · rw [writeDocument_of_greater (Nat.not_le.mp hs)] at hwrite
    cases hwrite

/-- The folder of a file is made, and there is a place for the file then. -/
private theorem exists_makeParent (h : d.Writable p) :
    ∃ made loc, makeParent p d = ⟨.ok (), made, []⟩ ∧
      d.AltersFolders made ∧ made.find p = .ok loc ∧ ¬made.HasFolder loc := by
  obtain ⟨q, hparent, hmade, loc, hfind, hloc⟩ := h.makeFolders
  refine ⟨(d.makeFolders q).1, loc, ?_, d.altersFolders_makeFolders q, hfind, hloc⟩
  rw [makeParent_apply hparent, hmade]
  rfl

/-- Settings with a written form are saved where a file can be written. -/
theorem save_of_le (h : d.Writable p) (hs : s.capacityHint ≤ greatestNumber) :
    ∃ made loc d', d.AltersFolders made ∧ made.find p = .ok loc ∧ made.KeepsFolders d' ∧
      (∀ l, d'.node? l =
        if l = loc then some (.file (Utf8.encode s.lines)) else made.node? l) ∧
      save p s d = ⟨.ok (), d', [⟨.info, "Configuration saved to " ++ p.text⟩]⟩ := by
  obtain ⟨made, loc, hmade, halters, hfind, hloc⟩ := exists_makeParent h
  obtain ⟨d', hwrite, hkeeps, hnodes⟩ := Disk.writeFile_of_find hfind hloc (Utf8.encode s.lines)
  refine ⟨made, loc, d', halters, hfind, hkeeps, hnodes, ?_⟩
  rw [save_eq, Action.bind_apply, hmade]
  dsimp only
  rw [writeDocument_apply hs, hwrite]
  rfl

/-- Where there is a file already, it is written anew, and nothing else changes. -/
theorem save_of_find (hfind : d.find p = .ok loc) (hloc : ¬d.HasFolder loc)
    (hs : s.capacityHint ≤ greatestNumber) :
    ∃ d', d.KeepsFolders d' ∧
      (∀ l, d'.node? l = if l = loc then some (.file (Utf8.encode s.lines)) else d.node? l) ∧
      save p s d = ⟨.ok (), d', [⟨.info, "Configuration saved to " ++ p.text⟩]⟩ := by
  obtain ⟨q, m, hparent, hreach, -⟩ := Disk.exists_reachesFolder hfind hloc
  obtain ⟨d', hwrite, hkeeps, hnodes⟩ := Disk.writeFile_of_find hfind hloc (Utf8.encode s.lines)
  refine ⟨d', hkeeps, hnodes, ?_⟩
  rw [save_eq, Action.bind_apply, makeParent_apply hparent,
    Disk.makeFolders_of_reachesFolder hreach]
  dsimp only [Except.mapError]
  rw [writeDocument_apply hs, hwrite]
  rfl

/-- Settings without a written form leave new folders at most. -/
theorem save_of_greater (h : d.Writable p) (hs : greatestNumber < s.capacityHint) :
    ∃ made, d.AltersFolders made ∧
      save p s d = ⟨.error (.configUnwritable "out-of-range value for u64 type"), made, []⟩ := by
  obtain ⟨made, loc, hmade, halters, -, -⟩ := exists_makeParent h
  refine ⟨made, halters, ?_⟩
  rw [save_eq, Action.bind_apply, hmade]
  dsimp only
  rw [writeDocument_of_greater hs]
  rfl

/-- **Round trip.** Settings that are saved are loaded again, whatever their texts hold, and nothing
has changed but the file and the folders above it. Settings with a number that a document cannot
hold are refused, and all files stay. The bytes that are saved read back as the settings
(`ofBytes_lines`), and the path leads to them because the folders above the file are there when it
is written (`exists_makeParent`). -/
theorem load_save (s : Settings) (h : d.Writable p) :
    (s.capacityHint ≤ 2 ^ 63 - 1 →
      (save p s d).result = .ok () ∧ (load p (save p s d).state).result = .ok s ∧
        ∃ made loc, d.AltersFolders made ∧ made.find p = .ok loc ∧
          ∀ l, (save p s d).state.node? l =
            if l = loc then some (.file (Utf8.encode s.lines)) else made.node? l) ∧
    (2 ^ 63 - 1 < s.capacityHint →
      (save p s d).result = .error (.configUnwritable "out-of-range value for u64 type") ∧
        d.AltersFolders (save p s d).state ∧
        ∀ data, d.readFile p = .ok data → (save p s d).state.readFile p = .ok data) := by
  constructor
  · intro hs
    have hle : s.capacityHint ≤ greatestNumber := greatestNumber_eq ▸ hs
    obtain ⟨made, loc, d', halters, hfind, hkeeps, hnodes, hsave⟩ := save_of_le h hle
    have hfile : d'.node? loc = some (.file (Utf8.encode s.lines)) := by rw [hnodes, if_pos rfl]
    rw [hsave]
    refine ⟨rfl, ?_, made, loc, halters, hfind, hnodes⟩
    rw [load_of_file (hkeeps.find hfind) hfile, ofBytes_lines p hle]
  · intro hs
    have hgreater : greatestNumber < s.capacityHint := greatestNumber_eq ▸ hs
    obtain ⟨made, halters, hsave⟩ := save_of_greater h hgreater
    rw [hsave]
    exact ⟨rfl, halters, fun data hread => halters.readFile_eq_ok hread⟩

/-- Settings with both quotes, a backslash and line breaks in their texts. -/
def crowded (capacityHint : Nat) : Settings where
  verbose := true
  logFormat := "it's \"quoted\"\n\\\r"
  directory := some ⟨"\n'''\x00"⟩
  capacityHint := capacityHint

/-- On a disk without anything but a root, a file can be written in a folder that is still to be
made. -/
private theorem writable_nested : Disk.empty.Writable ⟨"/etc/config.toml"⟩ where
  start := ⟨0o755, by decide⟩
  place := by
    refine ⟨Disk.empty.put ["etc"] (.folder 0o755), ["etc", "config.toml"], .put (.inl rfl) _, ?_,
      Disk.not_hasFolder_of_none (by decide)⟩
    decide

/-- In a folder that is made for them, such settings are saved and loaded again with the greatest
number, and are refused with the next one. -/
theorem load_save_crowded :
    Disk.empty.Writable ⟨"/etc/config.toml"⟩ ∧
      (load ⟨"/etc/config.toml"⟩
        (save ⟨"/etc/config.toml"⟩ (crowded (2 ^ 63 - 1)) Disk.empty).state).result =
          .ok (crowded (2 ^ 63 - 1)) ∧
      (save ⟨"/etc/config.toml"⟩ (crowded (2 ^ 63)) Disk.empty).result =
        .error (.configUnwritable "out-of-range value for u64 type") :=
  ⟨writable_nested, ((load_save (crowded (2 ^ 63 - 1)) writable_nested).1 (Nat.le_refl _)).2.1,
    ((load_save (crowded (2 ^ 63)) writable_nested).2 (by decide)).1⟩

end BlobCache.Settings
