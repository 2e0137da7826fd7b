import BlobCache.Proofs.Disk.Interruption
import BlobCache.Proofs.ObjectDir.Opening

/-!
# Saves that are interrupted

A process may be stopped while it saves an object. A store that opens the directory then offers what
was offered before, or this and the new object with all its labels and its whole body
(`ObjectStore.crash_atomic`), wherever the save was stopped and whatever else lies in the directory:
files under other names, files that were never objects, and temporary files of earlier saves that
were stopped, too.

Two facts carry the proof. A save that was stopped has either put its whole file in place or changed
nothing but a temporary file (`Records.nodes_of_stops`), and what a store makes of a name depends on
the node under this name alone (`object_congr`, `mem_filenames_congr`). So every name but the new
one means what it meant, and the new one nothing or everything.

The store that saves need not know its directory well. It is enough that it takes no slot for free
in which there is something (`Records`).
-/

namespace BlobCache

/-- What is to be had under a path depends on where it leads and on what is there. -/
private theorem Disk.stat_congr {d d' : Disk} {p : Path} {loc : Location} (h : d.find p = .ok loc)
    (h' : d'.find p = .ok loc) (hnode : d'.node? loc = d.node? loc) : d'.stat p = d.stat p := by
  rw [stat, stat, h, h']
  simp only [bind, Except.bind, hnode]

namespace ObjectStore

variable {s s' : ObjectStore} {folder : Location} {name : String} {o : StoredObject}

/-- A store lists a name and gives an object under it. -/
def Offers (s : ObjectStore) (name : String) (o : StoredObject) : Prop :=
  name ∈ s.dir.filenames ∧ s.object name = .ok o

/-! ### Names mean what their nodes are -/

/-- A name is listed if it is a slot's and there is something under it. -/
theorem InStep.mem_filenames_iff (h : s.InStep folder) :
    name ∈ s.dir.filenames ↔
      ∃ n, name = Slot.name n ∧ n < Slot.bound ∧ s.disk.node? (folder ++ [name]) ≠ none := by
  constructor
  · intro hname
    obtain ⟨n, hn, rfl⟩ := List.mem_map.mp hname
    exact ⟨n, rfl, (h.mem_slots_iff n).mp hn⟩
  · rintro ⟨n, rfl, hnode⟩
    exact List.mem_map.mpr ⟨n, (h.mem_slots_iff n).mpr hnode, rfl⟩

/-- Stores over one directory make the same of a name if they have the same node under it, be it an
object or not. Names of other files mean nothing to either. -/
theorem object_congr (h : s.InStep folder) (h' : s'.InStep folder)
    (hpath : s'.dir.path = s.dir.path)
    (hnode : ∀ n, name = Slot.name n →
      s'.disk.node? (folder ++ [name]) = s.disk.node? (folder ++ [name])) :
    s'.object name = s.object name := by
  have hread : s'.read name = s.read name := by
    rw [read, read]
    cases hslot : Slot.ofName? name with
    | none => rfl
    | some n =>
      obtain ⟨rfl, -⟩ := Slot.ofName?_eq_some_iff.mp hslot
      have hslotPath : s'.dir.slotPath n = s.dir.slotPath n := by
        rw [ObjectDir.slotPath, ObjectDir.slotPath, hpath]
      have hfind := h'.find_slotPath n
      rw [hslotPath] at hfind
      dsimp only
      rw [hslotPath, Disk.stat_congr (h.find_slotPath n) hfind (hnode n rfl)]
  rw [object, object, hread]

/-- And they list a name both or neither. -/
theorem mem_filenames_congr (h : s.InStep folder) (h' : s'.InStep folder)
    (hnode : ∀ n, name = Slot.name n →
      s'.disk.node? (folder ++ [name]) = s.disk.node? (folder ++ [name])) :
    name ∈ s'.dir.filenames ↔ name ∈ s.dir.filenames := by
  rw [h.mem_filenames_iff, h'.mem_filenames_iff]
  refine exists_congr fun n => and_congr_right fun hname => ?_
  rw [hnode n hname]

/-- A store that is in step offers what it can read. -/
theorem InStep.offers_iff (h : s.InStep folder) : s.Offers name o ↔ s.object name = .ok o :=
  ⟨And.right, fun ho => ⟨h.mem_filenames_of_object ho, ho⟩⟩

namespace Records

/-- A store that takes no slot for free in which there is something differs from one that is in step
in nothing but names that it lists without cause. -/
private theorem exists_inStep (h : s.Records folder) :
    ∃ t : ObjectStore, t.InStep folder ∧ t.dir.path = s.dir.path ∧ t.disk = s.disk ∧
      t.object = s.object ∧ ∀ name ∈ t.dir.filenames, name ∈ s.dir.filenames := by
  obtain ⟨slots, -, -, hin⟩ := rescan_of_find h.find_path h.hasFolder h.limit_le
  refine ⟨_, hin, rfl, rfl, rfl, fun name hname => ?_⟩
  obtain ⟨n, rfl, hlt, hnode⟩ := hin.mem_filenames_iff.mp hname
  exact List.mem_map.mpr ⟨n, h.mem_slots n hlt hnode, rfl⟩

/-- Such a store offers what it can read, too. -/
theorem offers_iff (h : s.Records folder) : s.Offers name o ↔ s.object name = .ok o := by
  obtain ⟨t, hin, -, -, hobject, hlisted⟩ := h.exists_inStep
  refine ⟨And.right, fun ho => ⟨hlisted name ?_, ho⟩⟩
  have hread : t.object name = .ok o := by rw [hobject, ho]
  exact hin.mem_filenames_of_object hread

/-! ### The disk after an interruption -/

variable {n : Nat} {header data : Bytes} {disk : Disk}

/-- A save that was stopped has put its file in place, or left what is in the slots alone. This is
`Disk.stops_placement`, with the names of slots and of temporary files told apart. -/
theorem nodes_of_stops (h : s.Records folder)
    (hstop : s.disk.Stops (s.dir.placement n header data) disk) :
    s.disk.KeepsFolders disk ∧
      ((∀ m, disk.node? (folder ++ [Slot.name m]) = s.disk.node? (folder ++ [Slot.name m])) ∨
        disk.node? (folder ++ [Slot.name n]) = some (.file (header ++ data)) ∧
          ∀ m, m ≠ n →
            disk.node? (folder ++ [Slot.name m]) = s.disk.node? (folder ++ [Slot.name m])) := by
  have htemporary : s.disk.find (s.dir.temporaryPath n) = .ok (folder ++ [Slot.temporaryName n]) :=
    Disk.find_join h.find_path h.hasFolder (Slot.isPlain_temporaryName n)
  have hslot : s.disk.find (s.dir.slotPath n) = .ok (folder ++ [Slot.name n]) :=
    Disk.find_join h.find_path h.hasFolder (Slot.isPlain_name n)
  -- no slot has its place where the temporary file has it
  have hbeside := fun m => Slot.append_name_ne_temporaryName folder m n
  obtain hbefore | ⟨hkeeps, hfile, hothers⟩ :=
    Disk.stops_placement htemporary hslot (hbeside n) hstop
  · exact ⟨hbefore.keepsFolders, .inl fun m => hbefore.node?_eq _ (hbeside m)⟩
  · refine ⟨hkeeps, .inr ⟨hfile, fun m hm => ?_⟩⟩
    exact hothers _ (mt Slot.append_name_inj.mp hm) (hbeside m)

/-- A store opens where a save was stopped, and has in its slots what is there. -/
private theorem exists_openAt (h : s.Records folder) (hkeeps : s.disk.KeepsFolders disk)
    (limit : UInt64) :
    ∃ after, (openAt s.dir.path limit.toNat disk).result = .ok after ∧ after.InStep folder ∧
      after.dir.path = s.dir.path ∧
      ∀ name, after.disk.node? (folder ++ [name]) = disk.node? (folder ++ [name]) := by
  obtain ⟨after, hopen, hpath, hin, hdisk⟩ := openAt_of_hasFolder (hkeeps.find h.find_path)
    (hkeeps.hasFolder h.hasFolder) (Slot.toNat_le_bound limit)
  refine ⟨after, hopen, hin, hpath, fun name => ?_⟩
  -- opening changes the permissions of the folder and nothing in it
  have hne : folder ++ [name] ≠ folder := by simp
  rw [hdisk, Disk.node?_put, if_neg hne]

end Records

/-! ### What is offered afterwards -/

variable {labels : Labels} {header data : Bytes} {n : Nat} {disk : Disk}

/-- A slot that has the node that it had means to a later store what it meant to an earlier one. -/
private theorem Records.unaltered (h : s.Records folder) (h' : s'.InStep folder)
    (hpath : s'.dir.path = s.dir.path)
    (hnode : ∀ m, name = Slot.name m →
      s'.disk.node? (folder ++ [Slot.name m]) = s.disk.node? (folder ++ [Slot.name m])) :
    s'.object name = s.object name ∧ (name ∈ s'.dir.filenames → name ∈ s.dir.filenames) := by
  obtain ⟨t, hin, hpath', hdisk, hobject, hlisted⟩ := h.exists_inStep
  have hnode' : ∀ m, name = Slot.name m →
      s'.disk.node? (folder ++ [name]) = t.disk.node? (folder ++ [name]) := by
    rintro m rfl
    rw [hdisk]
    exact hnode m rfl
  refine ⟨?_, fun hname => hlisted name ((mem_filenames_congr hin h' hnode').mp hname)⟩
  rw [← hobject]
  exact object_congr hin h' (hpath.trans hpath'.symm) hnode'

/-- Under the name of a place with nothing in it, no object is to be had. -/
private theorem Records.object_ne_ok (h : s.Records folder)
    (hnone : s.disk.node? (folder ++ [Slot.name n]) = none) (o : StoredObject) :
    s.object (Slot.name n) ≠ .ok o := by
  obtain ⟨t, hin, -, hdisk, hobject, -⟩ := h.exists_inStep
  have hempty : ∀ m, Slot.name n = Slot.name m →
      t.disk.node? (folder ++ [Slot.name m]) = none := by
    intro m heq
    rw [hdisk, ← heq, hnone]
  obtain ⟨e, he⟩ := hin.object_eq_error hempty
  intro ho
  rw [← hobject, he] at ho
  cases ho

/-- **Crash atomicity.** A save may be stopped at any point. A store that opens the directory then,
with whatever limit, offers what was offered before, or in addition the whole new object; and
whatever it lists is the new object or was listed before and means what it meant. The disk that is
left differs from the one before in the temporary file alone or has the file in place
(`Records.nodes_of_stops`), and an opener sees of each name no more than its node
(`Records.unaltered`). -/
theorem crash_atomic (h : s.Records folder) (hheader : labels.header = .ok header)
    (hfree : s.dir.freeSlot? = some n)
    (hstop : s.disk.Stops (s.dir.placement n header data) disk) (limit : UInt64) :
    ∃ after, (openAt s.dir.path limit.toNat disk).result = .ok after ∧
      ((∀ name o, after.Offers name o ↔ s.Offers name o) ∨
        ∀ name o, after.Offers name o ↔
          s.Offers name o ∨ name = Slot.name n ∧ o = ⟨labels, data⟩) ∧
      ∀ name ∈ after.dir.filenames,
        name ∈ s.dir.filenames ∧ after.object name = s.object name ∨
          name = Slot.name n ∧ after.object name = .ok ⟨labels, data⟩ := by
  obtain ⟨hkeeps, hnodes⟩ := h.nodes_of_stops hstop
  obtain ⟨after, hopen, hafter, hpath, hnode⟩ := h.exists_openAt hkeeps limit
  refine ⟨after, hopen, ?_⟩
  obtain hall | ⟨hfile, hothers⟩ := hnodes
  · have hsame : ∀ name, after.object name = s.object name ∧
        (name ∈ after.dir.filenames → name ∈ s.dir.filenames) := fun name =>
      h.unaltered hafter hpath fun m _ => (hnode _).trans (hall m)
    refine ⟨.inl fun name o => ?_, fun name hname => .inl ?_⟩
    · rw [hafter.offers_iff, h.offers_iff, (hsame name).1]
    · exact ⟨(hsame name).2 hname, (hsame name).1⟩
  · obtain ⟨-, hlt, hnone⟩ := h.freeSlot hfree
    have hnew : after.object (Slot.name n) = .ok ⟨labels, data⟩ :=
      hafter.object_of_file hheader hlt ((hnode _).trans hfile)
    -- the new name was free, so nothing was to be had under it
    have hold := h.object_ne_ok hnone
    have hsame := fun name (hname : name ≠ Slot.name n) => h.unaltered hafter hpath fun m hm =>
      (hnode _).trans (hothers m fun heq => hname (heq ▸ hm))
    refine ⟨.inr fun name o => ?_, fun name hname => ?_⟩
    · rw [hafter.offers_iff, h.offers_iff]
      by_cases hn : name = Slot.name n
      · rw [hn, hnew, or_iff_right (hold o), and_iff_right rfl, Except.ok.injEq, eq_comm]
      · rw [(hsame name hn).1, or_iff_left fun hboth => hn hboth.1]
    · by_cases hn : name = Slot.name n
      · exact .inr ⟨hn, hn ▸ hnew⟩
      · exact .inl ⟨(hsame name hn).2 hname, (hsame name hn).1⟩

/-- A store with an object, and with what is left of a save that was stopped. -/
def litteredStore : ObjectStore where
  dir := { path := ⟨"/o"⟩, limit := 3, slots := .ofList [0] }
  disk := { nodes := [([], .folder 0), (["o"], .folder 0), (["o", "0"], .file [0, 7]),
    (["o", "1.tmp"], .file [107])] }

theorem records_litteredStore : litteredStore.Records ["o"] where
  find_path := by rfl
  hasFolder := ⟨0, by rfl⟩
  mem_slots n _ hnode := by
    have hnames : litteredStore.disk.childNames ["o"] = [Slot.name 0, Slot.temporaryName 1] := by
      rfl
    have hname := Disk.mem_childNames.mpr hnode
    rw [hnames, List.mem_cons, List.mem_singleton] at hname
    rcases hname with hslot | htemporary
    · rw [Slot.name_injective hslot]
      decide
    · exact absurd htemporary.symm (Slot.temporaryName_ne_name 1 n)
  limit_le := by decide

/-- The next save is stopped when two bytes of its header are written. -/
theorem crash_atomic_littered :
    let header : Bytes := [107, 32, 118, 10, 0]
    let created := litteredStore.disk.put ["o", "1.tmp"] (.file [])
    let disk := created.put ["o", "1.tmp"] (.file [107, 32])
    (litteredStore.Records ["o"] ∧ Labels.header ⟨[("k", "v")]⟩ = .ok header ∧
      litteredStore.dir.freeSlot? = some 1 ∧
      litteredStore.disk.Stops (litteredStore.dir.placement 1 header [120]) disk) ∧
    ∃ after, (openAt ⟨"/o"⟩ (3 : UInt64).toNat disk).result = .ok after ∧
      ((∀ name o, after.Offers name o ↔ litteredStore.Offers name o) ∨
        ∀ name o, after.Offers name o ↔
          litteredStore.Offers name o ∨ name = Slot.name 1 ∧ o = ⟨⟨[("k", "v")]⟩, [120]⟩) ∧
      ∀ name ∈ after.dir.filenames,
        name ∈ litteredStore.dir.filenames ∧ after.object name = litteredStore.object name ∨
          name = Slot.name 1 ∧ after.object name = .ok ⟨⟨[("k", "v")]⟩, [120]⟩ := by
  intro header created disk
  have hheader : Labels.header ⟨[("k", "v")]⟩ = .ok header := by rfl
  have hfree : litteredStore.dir.freeSlot? = some 1 := by decide
  have hstop : litteredStore.disk.Stops (litteredStore.dir.placement 1 header [120]) disk := by
    have hcreate : (FileOperation.create (litteredStore.dir.temporaryPath 1)).apply
        litteredStore.disk = .ok created := by rfl
    have happend : created.appendFile (litteredStore.dir.temporaryPath 1) (header.take 2) =
        .ok disk := by rfl
    exact .later hcreate (.within 2 _ happend)
  exact ⟨⟨records_litteredStore, hheader, hfree, hstop⟩,
    crash_atomic records_litteredStore hheader hfree hstop 3⟩

end ObjectStore

end BlobCache
