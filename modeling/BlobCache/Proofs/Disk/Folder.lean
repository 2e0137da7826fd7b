import BlobCache.Disk.Basic

/-!
# Files in a folder

A path that leads to a folder, joined with a plain name, leads to the place of that name in the
folder (`Disk.find_join`). What a path leads to depends on the folders of the disk alone, so it
stays as long as they do (`Disk.KeepsFolders.find`); files come and go without consequence for
paths. The names in a folder are those of the nodes directly below it (`Disk.mem_childNames`).
-/

namespace BlobCache

/-- A sequence succeeds when its steps do. -/
theorem bind_eq_ok_iff {ε α β : Type} {x : Except ε α} {f : α → Except ε β} {b : β} :
    (x >>= f) = .ok b ↔ ∃ a, x = .ok a ∧ f a = .ok b := by
  cases x with
  | error e => exact ⟨nofun, nofun⟩
  | ok a => exact ⟨fun h => ⟨a, rfl, h⟩, fun ⟨_, ha, h⟩ => Except.ok.inj ha ▸ h⟩

/-- Another wording of the error changes no success. -/
theorem mapError_eq_ok_iff {ε ε' α : Type} {x : Except ε α} {f : ε → ε'} {a : α} :
    x.mapError f = .ok a ↔ x = .ok a := by
  cases x with
  | error e => exact ⟨nofun, nofun⟩
  | ok b =>
    have hmapped : (Except.ok b : Except ε α).mapError f = .ok b := rfl
    rw [hmapped, Except.ok.injEq, Except.ok.injEq]

/-! ### Joining a plain name -/

namespace Path

/-- A name that leads one step down. -/
structure IsPlain (name : String) : Prop where
  ne_nil : name.toList ≠ []
  no_slash : '/' ∉ name.toList
  ne_dot : name ≠ "."
  ne_dots : name ≠ ".."

variable {p : Path} {name : String}

private theorem isAbsolute_eq_of_cons {p q : Path} {x : Char} {s t : List Char}
    (hp : p.text.toList = x :: s) (hq : q.text.toList = x :: t) : p.isAbsolute = q.isAbsolute := by
  rw [isAbsolute, isAbsolute, hp, hq]
  rfl

/-- Joining does not change where a path starts. -/
theorem isAbsolute_join (hp : p.text ≠ "") (name : String) :
    (p.join name).isAbsolute = p.isAbsolute := by
  obtain ⟨x, s, hx⟩ := List.exists_cons_of_ne_nil (mt String.toList_eq_nil_iff.mp hp)
  have hne : p.text.toList ≠ [] := mt String.toList_eq_nil_iff.mp hp
  rw [join, if_neg hne]
  by_cases hlast : p.text.toList.getLast? = some '/'
  · rw [if_pos hlast]
    refine isAbsolute_eq_of_cons (x := x) (s := s ++ name.toList) ?_ hx
    rw [String.toList_append, hx]
    rfl
  · rw [if_neg hlast]
    refine isAbsolute_eq_of_cons (x := x) (s := s ++ "/".toList ++ name.toList) ?_ hx
    rw [String.toList_append, String.toList_append, hx]
    rfl

/-- Joining a plain name adds one step. -/
theorem steps_join (hp : p.text ≠ "") (h : IsPlain name) :
    (p.join name).steps = p.steps ++ [name] := by
  have hname : name.toList.splitOn '/' = [name.toList] := List.splitOn_eq_singleton h.no_slash
  have hkeep : (name.toList != []) = true := by simpa using h.ne_nil
  have hne : p.text.toList ≠ [] := mt String.toList_eq_nil_iff.mp hp
  rw [join, if_neg hne]
  -- with a slash at the end, the empty last segment gives way to the name
  by_cases hlast : p.text.toList.getLast? = some '/'
  · rw [if_pos hlast]
    obtain ⟨s, hs⟩ := List.getLast?_eq_some_iff.mp hlast
    have hsegs : p.segments = s.splitOn '/' ++ [[]] := by
      simp [segments, hs, List.splitOn_append_cons_self]
    have hjoined : segments ⟨p.text ++ name⟩ = s.splitOn '/' ++ [name.toList] := by
      simp [segments, hs, List.splitOn_append_cons_self, hname]
    simp [steps, hsegs, hjoined, hkeep]
  · rw [if_neg hlast]
    have hjoined : segments ⟨p.text ++ "/" ++ name⟩ = p.segments ++ [name.toList] := by
      simp [segments, List.splitOn_append_cons_self, hname]
    simp [steps, hjoined, hkeep]

/-- A joined path ends in its name. -/
theorem endsInSlash_join (p : Path) (h : IsPlain name) : (p.join name).endsInSlash = false := by
  obtain ⟨s, x, hs⟩ : ∃ s x, name.toList = s ++ [x] :=
    ⟨_, _, (List.dropLast_concat_getLast h.ne_nil).symm⟩
  have hx : x ≠ '/' := by
    rintro rfl
    exact h.no_slash (by rw [hs]; simp)
  have hend : ∀ t : List Char, ((t ++ name.toList).getLast? == some '/') = false := by
    intro t
    rw [hs, ← List.append_assoc, List.getLast?_concat]
    simpa using hx
  rw [join]
  split
  · exact hend []
  · split
    · rw [endsInSlash, String.toList_append]
      exact hend _
    · rw [endsInSlash, String.toList_append]
      exact hend _

theorem join_ne_empty (p : Path) (h : IsPlain name) : (p.join name).text ≠ "" := by
  intro heq
  have hnil : (p.join name).text.toList = [] := String.toList_eq_nil_iff.mpr heq
  rw [join] at hnil
  split at hnil
  · exact h.ne_nil hnil
  · split at hnil
    · rw [String.toList_append] at hnil
      exact h.ne_nil (List.append_eq_nil_iff.mp hnil).2
    · rw [String.toList_append] at hnil
      exact h.ne_nil (List.append_eq_nil_iff.mp hnil).2

end Path

namespace Disk

variable {d d' : Disk} {p : Path} {name : String} {loc l : Location}

/-- There is a folder at a location. -/
def HasFolder (d : Disk) (loc : Location) : Prop :=
  ∃ mode, d.node? loc = some (.folder mode)

/-! ### Following paths -/

/-- Steps are followed one after the other. -/
theorem follow_append (d : Disk) (loc l : Location) (names rest : List String) :
    d.follow loc (names ++ rest) = .ok l ↔
      ∃ m, d.follow loc names = .ok m ∧ d.follow m rest = .ok l := by
  induction names generalizing loc with
  | nil => simp [follow]
  | cons name names ih =>
    rw [List.cons_append, follow, follow]
    cases d.node? loc with
    | none => simp
    | some node =>
      cases node with
      | file data => simp
      | folder mode => exact ih _

/-- A step from a folder is taken. -/
theorem follow_singleton (h : d.HasFolder loc) (name : String) :
    d.follow loc [name] = .ok (step loc name) := by
  obtain ⟨mode, hmode⟩ := h
  simp [follow, hmode]

/-- A step is taken from nowhere else. -/
theorem hasFolder_of_follow_singleton (h : d.follow loc [name] = .ok l) : d.HasFolder loc := by
  rw [follow] at h
  cases hn : d.node? loc with
  | none => simp [hn] at h
  | some node =>
    cases node with
    | file data => simp [hn] at h
    | folder mode => exact ⟨mode, hn⟩

theorem follow_singleton_eq_ok (h : d.follow loc [name] = .ok l) : l = step loc name := by
  rw [follow_singleton (hasFolder_of_follow_singleton h)] at h
  exact (Except.ok.inj h).symm

/-- A plain name leads one step down. -/
private theorem step_of_isPlain (hname : Path.IsPlain name) : step loc name = loc ++ [name] := by
  rw [step, if_neg hname.ne_dot, if_neg hname.ne_dots]

/-- A path without text leads nowhere. -/
theorem text_ne_empty (h : d.find p = .ok loc) : p.text ≠ "" := by
  intro hp
  simp [find, followFrom, hp] at h

/-- Where a path leads does not depend on slashes at its end. -/
theorem followFrom_steps (h : d.find p = .ok loc) : d.followFrom p p.steps = .ok loc := by
  have hp := text_ne_empty h
  rw [find, followFrom, if_neg hp] at h
  rw [followFrom, if_neg hp]
  -- a slash at the end asks for a folder, by a step to where one is already
  by_cases hs : p.endsInSlash
  · rw [if_pos hs, follow_append] at h
    obtain ⟨m, hm, hdot⟩ := h
    rw [hm, follow_singleton_eq_ok hdot]
    rfl
  · rwa [if_neg hs] at h

/-- A plain name below a path is followed as the last step. -/
private theorem find_join_eq (hp : p.text ≠ "") (hname : Path.IsPlain name) : d.find (p.join name) =
    d.follow (if p.isAbsolute then [] else d.workingFolder) (p.steps ++ [name]) := by
  rw [find, followFrom, if_neg (p.join_ne_empty hname), p.endsInSlash_join hname,
    if_neg Bool.false_ne_true, Path.isAbsolute_join hp, Path.steps_join hp hname]

/-- A plain name below a folder leads to its place in the folder. -/
theorem find_join (h : d.find p = .ok loc) (hfolder : d.HasFolder loc) (hname : Path.IsPlain name) :
    d.find (p.join name) = .ok (loc ++ [name]) := by
  have hp := text_ne_empty h
  have hsteps := followFrom_steps h
  rw [followFrom, if_neg hp] at hsteps
  rw [find_join_eq hp hname, follow_append]
  refine ⟨loc, hsteps, ?_⟩
  rw [follow_singleton hfolder, step_of_isPlain hname]

/-- Plain names below one path are followed alike up to the last step. -/
theorem exists_find_join (d : Disk) (p : Path) : ∃ start names, ∀ {name}, Path.IsPlain name →
    d.find (p.join name) = d.follow start (names ++ [name]) := by
  by_cases hp : p.text = ""
  · -- below the path without text, a name stands alone
    refine ⟨d.workingFolder, [], fun {name} hname => ?_⟩
    have hjoin : p.join name = ⟨name⟩ := by
      rw [Path.join, if_pos (String.toList_eq_nil_iff.mpr hp)]
    have habsolute : (p.join name).isAbsolute = false := by
      rw [hjoin, Path.isAbsolute, beq_eq_false_iff_ne]
      exact fun hhead => hname.no_slash (List.mem_of_head? hhead)
    have hsteps : (p.join name).steps = [name] := by
      have hsegments : Path.segments ⟨name⟩ = [name.toList] :=
        List.splitOn_eq_singleton hname.no_slash
      have hkeep : (name.toList != []) = true := by simpa using hname.ne_nil
      simp [hjoin, Path.steps, hsegments, hkeep]
    rw [find, followFrom, if_neg (p.join_ne_empty hname), p.endsInSlash_join hname,
      if_neg Bool.false_ne_true, habsolute, hsteps]
    rfl
  · exact ⟨_, p.steps, find_join_eq hp⟩

/-- Where one plain name leads to a place, the others lead to places beside it. -/
theorem find_join_of_find_join (h : d.find (p.join name) = .ok l) (hname : Path.IsPlain name) :
    ∃ folder, l = folder ++ [name] ∧
      ∀ {other}, Path.IsPlain other → d.find (p.join other) = .ok (folder ++ [other]) := by
  obtain ⟨start, names, hfind⟩ := d.exists_find_join p
  rw [hfind hname, follow_append] at h
  obtain ⟨folder, hnames, hlast⟩ := h
  have hfolder := hasFolder_of_follow_singleton hlast
  refine ⟨folder, ?_, fun {other} hother => ?_⟩
  · rw [follow_singleton_eq_ok hlast, step_of_isPlain hname]
  · rw [hfind hother, follow_append]
    refine ⟨folder, hnames, ?_⟩
    rw [follow_singleton hfolder, step_of_isPlain hother]

/-! ### Disks with the same folders -/

/-- The folders of a disk are there on another one too, and paths start at the same place. -/
structure KeepsFolders (d d' : Disk) : Prop where
  workingFolder_eq : d'.workingFolder = d.workingFolder
  hasFolder : ∀ {loc}, d.HasFolder loc → d'.HasFolder loc

namespace KeepsFolders

theorem trans {d'' : Disk} (h : d.KeepsFolders d') (h' : d'.KeepsFolders d'') :
    d.KeepsFolders d'' :=
  ⟨h'.workingFolder_eq.trans h.workingFolder_eq, fun hf => h'.hasFolder (h.hasFolder hf)⟩

/-- A node may be put where there is no folder. -/
theorem put (h : ¬d.HasFolder loc) (node : Node) : d.KeepsFolders (d.put loc node) := by
  refine ⟨rfl, fun {l} hf => ?_⟩
  have hne : l ≠ loc := fun hl => h (hl ▸ hf)
  rw [HasFolder, node?_put, if_neg hne]
  exact hf

/-- A folder may be put in the place of another one. -/
theorem put_folder (d : Disk) (loc : Location) (mode : Nat) :
    d.KeepsFolders (d.put loc (.folder mode)) := by
  refine ⟨rfl, fun {l} hf => ?_⟩
  rw [HasFolder, node?_put]
  by_cases hl : l = loc
  · exact ⟨mode, by rw [if_pos hl]⟩
  · rw [if_neg hl]
    exact hf

/-- What is not a folder may be taken away. -/
theorem erase (h : ¬d.HasFolder loc) : d.KeepsFolders (d.erase loc) := by
  refine ⟨rfl, fun {l} hf => ?_⟩
  have hne : l ≠ loc := fun hl => h (hl ▸ hf)
  rw [HasFolder, node?_erase, if_neg hne]
  exact hf

/-- Taking a node away brings no folder. -/
theorem of_erase (d : Disk) (loc : Location) : (d.erase loc).KeepsFolders d := by
  refine ⟨rfl, ?_⟩
  rintro l ⟨mode, hmode⟩
  rw [node?_erase] at hmode
  split at hmode
  · cases hmode
  · exact ⟨mode, hmode⟩

theorem follow (h : d.KeepsFolders d') {names : List String} (hl : d.follow loc names = .ok l) :
    d'.follow loc names = .ok l := by
  induction names generalizing loc with
  | nil => exact hl
  | cons name names ih =>
    rw [Disk.follow] at hl ⊢
    cases hn : d.node? loc with
    | none => simp [hn] at hl
    | some node =>
      cases node with
      | file data => simp [hn] at hl
      | folder mode =>
        -- every step but the last is taken from a folder
        obtain ⟨mode', hmode'⟩ := h.hasFolder ⟨mode, hn⟩
        rw [hn] at hl
        rw [hmode']
        exact ih hl

/-- A path leads where it led as long as the folders are there. -/
theorem find (h : d.KeepsFolders d') (hp : d.find p = .ok loc) : d'.find p = .ok loc := by
  have hne := text_ne_empty hp
  rw [Disk.find, followFrom, if_neg hne] at hp ⊢
  rw [h.workingFolder_eq]
  exact h.follow hp

end KeepsFolders

/-! ### Disks with the same files -/

/-- Two disks differ in folders at most, and none is lost. -/
structure AltersFolders (d d' : Disk) : Prop where
  workingFolder_eq : d'.workingFolder = d.workingFolder
  node?_cases : ∀ l, d'.node? l = d.node? l ∨ d'.HasFolder l ∧ (d.node? l = none ∨ d.HasFolder l)

namespace AltersFolders

theorem refl (d : Disk) : d.AltersFolders d :=
  ⟨rfl, fun _ => .inl rfl⟩

theorem keepsFolders (h : d.AltersFolders d') : d.KeepsFolders d' := by
  refine ⟨h.workingFolder_eq, fun {l} hl => ?_⟩
  obtain heq | ⟨hfolder, -⟩ := h.node?_cases l
  · rwa [HasFolder, heq]
  · exact hfolder

theorem trans {d'' : Disk} (h : d.AltersFolders d') (h' : d'.AltersFolders d'') :
    d.AltersFolders d'' := by
  refine ⟨h'.workingFolder_eq.trans h.workingFolder_eq, fun l => ?_⟩
  obtain heq | ⟨hfolder, hold⟩ := h.node?_cases l
  · have hiff : d'.HasFolder l ↔ d.HasFolder l := by rw [HasFolder, HasFolder, heq]
    rw [← heq, ← hiff]
    exact h'.node?_cases l
  · exact .inr ⟨h'.keepsFolders.hasFolder hfolder, hold⟩

/-- A folder may be put where there is no file. -/
theorem put (h : d.node? loc = none ∨ d.HasFolder loc) (mode : Nat) :
    d.AltersFolders (d.put loc (.folder mode)) := by
  refine ⟨rfl, fun l => ?_⟩
  by_cases hl : l = loc
  · subst hl
    exact .inr ⟨⟨mode, by rw [node?_put, if_pos rfl]⟩, h⟩
  · exact .inl (by rw [node?_put, if_neg hl])

/-- The files are the same. -/
theorem file_iff (h : d.AltersFolders d') {data : Bytes} :
    d'.node? l = some (.file data) ↔ d.node? l = some (.file data) := by
  obtain heq | ⟨⟨mode, hmode⟩, hold⟩ := h.node?_cases l
  · rw [heq]
  · refine iff_of_false (fun hfile => ?_) fun hfile => ?_
    · rw [hmode] at hfile
      cases hfile
    · obtain hnone | ⟨mode', hmode'⟩ := hold
      · rw [hnone] at hfile
        cases hfile
      · rw [hmode'] at hfile
        cases hfile

end AltersFolders

theorem altersFolders_makeFolder (h : d.makeFolder p = .ok d') : d.AltersFolders d' := by
  obtain ⟨loc, -, hmade⟩ := bind_eq_ok_iff.mp h
  cases hn : d.node? loc with
  | none =>
    simp only [hn] at hmade
    cases hmade
    exact .put (.inl hn) 0o755
  | some node =>
    simp only [hn] at hmade
    cases hmade

/-- Making folders touches no file, whether it comes to its end or not. -/
theorem altersFolders_makeChain (d : Disk) (paths : List Path) :
    d.AltersFolders (d.makeChain paths).1 := by
  induction paths generalizing d with
  | nil => exact .refl d
  | cons p above ih =>
    rw [makeChain]
    by_cases hp : p.text = ""
    · rw [if_pos hp]
      exact .refl d
    · rw [if_neg hp]
      cases hfirst : d.makeFolder p with
      | ok d' =>
        simp only [hfirst]
        exact altersFolders_makeFolder hfirst
      | error e =>
        simp only [hfirst]
        cases e
        case notFound =>
          -- the folder is tried again when the ones above it are there
          have habove := ih d
          generalize d.makeChain above = chain at habove ⊢
          obtain ⟨d₁, result⟩ := chain
          cases result with
          | error e => exact habove
          | ok _ =>
            cases hagain : d₁.makeFolder p with
            | ok d₂ =>
              simp only [hagain]
              exact habove.trans (altersFolders_makeFolder hagain)
            | error e =>
              simp only [hagain]
              exact habove
        all_goals exact .refl d

/-- Making folders touches no file. -/
theorem altersFolders_makeFolders (d : Disk) (p : Path) : d.AltersFolders (d.makeFolders p).1 :=
  d.altersFolders_makeChain p.ancestors

theorem altersFolders_setMode {mode : Nat} (h : d.setMode p mode = .ok d') :
    d.AltersFolders d' := by
  obtain ⟨loc, -, hset⟩ := bind_eq_ok_iff.mp h
  cases hn : d.node? loc with
  | none =>
    simp only [hn] at hset
    cases hset
  | some node =>
    cases node with
    | file data =>
      simp only [hn] at hset
      cases hset
      exact .refl d
    | folder old =>
      simp only [hn] at hset
      cases hset
      exact .put (.inr ⟨old, hn⟩) mode

/-! ### The names in a folder -/

/-- The names in a folder are those of the nodes directly below it. -/
theorem mem_childNames : name ∈ d.childNames loc ↔ d.node? (loc ++ [name]) ≠ none := by
  have hlast : ∀ k : Location,
      (if k.dropLast = loc then k.getLast? else none) = some name ↔ k = loc ++ [name] := by
    intro k
    constructor
    · intro h
      by_cases hd : k.dropLast = loc
      · rw [if_pos hd] at h
        obtain ⟨s, rfl⟩ := List.getLast?_eq_some_iff.mp h
        rw [List.dropLast_concat] at hd
        rw [hd]
      · rw [if_neg hd] at h
        cases h
    · rintro rfl
      rw [List.dropLast_concat, if_pos rfl, List.getLast?_concat]
  rw [childNames, List.mem_filterMap, node?, Option.ne_none_iff_isSome, List.lookup_isSome_iff]
  constructor
  · rintro ⟨⟨k, node⟩, hmem, hk⟩
    exact ⟨(k, node), hmem, beq_iff_eq.mpr ((hlast k).mp hk).symm⟩
  · rintro ⟨⟨k, node⟩, hmem, hk⟩
    exact ⟨(k, node), hmem, (hlast k).mpr (beq_iff_eq.mp hk).symm⟩

/-- The names in a folder that a path leads to. -/
theorem readFolder_of_find (h : d.find p = .ok loc) (hfolder : d.HasFolder loc) :
    d.readFolder p = .ok (d.childNames loc) := by
  obtain ⟨mode, hmode⟩ := hfolder
  rw [readFolder, h]
  simp only [bind, Except.bind, hmode]
  rfl

/-- A folder whose names can be read is one. -/
theorem find_of_readFolder {names : List String} (h : d.readFolder p = .ok names) :
    ∃ loc, d.find p = .ok loc ∧ d.HasFolder loc ∧ names = d.childNames loc := by
  obtain ⟨loc, hp, hread⟩ := bind_eq_ok_iff.mp h
  cases hn : d.node? loc with
  | none => simp [hn] at hread
  | some node =>
    cases node with
    | file data => simp [hn] at hread
    | folder mode =>
      simp only [hn] at hread
      exact ⟨loc, hp, ⟨mode, hn⟩, (Except.ok.inj hread).symm⟩

end Disk

end BlobCache
