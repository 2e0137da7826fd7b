import BlobCache.Proofs.Disk.File
import BlobCache.Proofs.Path

/-!
# Making the folders above a file

A program that writes a file first makes the folders above it. Where a file can be written at all
(`Disk.Writable`), that succeeds, and the path leads to the place of the file then
(`Disk.Writable.makeFolders`). No folder is made beside those that the path goes through, so that
the place stays free. Where the folders are there already, nothing is made
(`Disk.makeFolders_of_reachesFolder`).

The folders are made by trying the nearest one first. The induction is on the list of folders above,
and the steps of a folder are those of the next one and one more.
-/

namespace BlobCache.Disk

variable {d e : Disk} {p q : Path} {loc l m : Location} {names : List String}

/-! ### Following paths -/

/-- Where a path starts. -/
def start (d : Disk) (p : Path) : Location :=
  if p.isAbsolute then [] else d.workingFolder

private theorem followFrom_of_text (hp : p.text ≠ "") (names : List String) :
    d.followFrom p names = d.follow (d.start p) names := by
  rw [followFrom, if_neg hp]
  rfl

/-- The first of several steps is taken from a folder. -/
private theorem hasFolder_of_follow_cons {name : String}
    (h : d.follow loc (name :: names) = .ok l) :
    d.HasFolder loc := by
  obtain ⟨m, hm, -⟩ := (d.follow_append loc l [name] names).mp h
  exact hasFolder_of_follow_singleton hm

/-- Idle steps stay in the folder. -/
private theorem follow_dots (h : d.HasFolder loc) (hdots : ∀ x ∈ names, x = ".") :
    d.follow loc names = .ok loc := by
  induction names with
  | nil => rfl
  | cons name names ih =>
    obtain rfl := hdots name List.mem_cons_self
    obtain ⟨mode, hmode⟩ := h
    rw [follow, hmode]
    exact ih fun x hx => hdots x (List.mem_cons_of_mem _ hx)

/-- Several steps end in a folder if the last one is idle. -/
private theorem hasFolder_of_follow_dot (h : d.follow loc (names ++ ["."]) = .ok l) :
    d.HasFolder l := by
  obtain ⟨m, -, hdot⟩ := (d.follow_append loc l names ["."]).mp h
  rw [follow_singleton_eq_ok hdot]
  exact hasFolder_of_follow_singleton hdot

/-- Where names lead to does not depend on the disk. -/
private theorem eq_foldl_of_follow (h : d.follow loc names = .ok l) : l = names.foldl step loc := by
  induction names generalizing loc with
  | nil => exact (Except.ok.inj h).symm
  | cons name names ih =>
    obtain ⟨m, hm, hrest⟩ := (d.follow_append loc l [name] names).mp h
    obtain rfl := follow_singleton_eq_ok hm
    exact ih hrest

/-- A file in the way stays in the way when folders are made. -/
private theorem AltersFolders.notDirectory_of_follow (h : d.AltersFolders e)
    (hfollow : d.follow loc names = .error .notDirectory) :
    e.follow loc names = .error .notDirectory := by
  induction names generalizing loc with
  | nil => cases hfollow
  | cons name names ih =>
    rw [follow] at hfollow ⊢
    cases hn : d.node? loc with
    | none => simp [hn] at hfollow
    | some node =>
      cases node with
      | file data => rw [h.file_iff.mpr hn]
      | folder mode =>
        obtain ⟨mode', hmode'⟩ := h.keepsFolders.hasFolder ⟨mode, hn⟩
        rw [hn] at hfollow
        rw [hmode']
        exact ih hfollow

/-- A path is refused because of a file in the way, or because something is missing. -/
private theorem error_cases_of_follow {err : IoError} (h : d.follow loc names = .error err) :
    err = .notDirectory ∨ err = .notFound := by
  induction names generalizing loc with
  | nil => cases h
  | cons name names ih =>
    rw [follow] at h
    cases hn : d.node? loc with
    | none =>
      rw [hn] at h
      exact .inr (Except.error.inj h).symm
    | some node =>
      rw [hn] at h
      cases node with
      | file data => exact .inl (Except.error.inj h).symm
      | folder mode => exact ih h

/-! ### Paths of folders -/

/-- A path leads to a folder; one without text leads to where paths start. -/
def ReachesFolder (d : Disk) (q : Path) (m : Location) : Prop :=
  d.follow (d.start q) q.steps = .ok m ∧ d.HasFolder m

theorem find_of_reachesFolder (hq : q.text ≠ "") (h : d.ReachesFolder q m) : d.find q = .ok m := by
  rw [find, followFrom_of_text hq]
  split
  · exact (d.follow_append _ _ _ _).mpr ⟨m, h.1, follow_singleton h.2 "."⟩
  · exact h.1

/-- What a path with text leads to, if it does not ask for a folder. -/
private theorem find_of_endsInSlash_eq_false (hp : p.text ≠ "") (hslash : p.endsInSlash = false) :
    d.find p = d.follow (d.start p) p.steps := by
  rw [find, followFrom_of_text hp, hslash, if_neg Bool.false_ne_true]

/-- A path that ends in a slash leads to a folder or nowhere. -/
private theorem endsInSlash_of_not_hasFolder (h : d.find p = .ok loc) (hloc : ¬d.HasFolder loc) :
    p.endsInSlash = false := by
  refine Bool.eq_false_iff.mpr fun hslash => hloc ?_
  rw [find, followFrom_of_text (text_ne_empty h), if_pos hslash] at h
  exact hasFolder_of_follow_dot h

/-- Steps that lead to no folder do not end with an idle one. -/
private theorem eq_nil_of_follow {behind : List String} (h : d.follow loc (names ++ behind) = .ok l)
    (hl : ¬d.HasFolder l) (hbehind : ∀ x ∈ behind, x = ".") : behind = [] := by
  obtain hnil | ⟨rest, x, hrest⟩ := List.eq_nil_or_concat behind
  · exact hnil
  · obtain rfl := hbehind x (by simp [hrest])
    rw [hrest, List.concat_eq_append, ← List.append_assoc] at h
    exact absurd (hasFolder_of_follow_dot h) hl

/-- Where the steps of a path lead from where those of another one end, beside idle steps, there is
a folder between. Where that folder is, the path is followed. -/
private theorem exists_reachesFolder_of_follow {before : List String} {name : String}
    (habsolute : q.isAbsolute = p.isAbsolute) (hsteps : p.steps = q.steps ++ (before ++ [name]))
    (hbefore : ∀ x ∈ before, x = ".") (h : d.follow (d.start p) p.steps = .ok loc) :
    ∃ m, d.ReachesFolder q m ∧
      ∀ e : Disk, e.ReachesFolder q m → e.follow (e.start p) p.steps = .ok loc := by
  have hstart : ∀ e : Disk, e.start q = e.start p := by
    intro e
    rw [start, habsolute, start]
  rw [hsteps, follow_append] at h
  obtain ⟨m, hm, hlast⟩ := h
  have hfolder : d.HasFolder m := by
    cases before with
    | nil => exact hasFolder_of_follow_singleton hlast
    | cons x before => exact hasFolder_of_follow_cons hlast
  have hend : ∀ e : Disk, e.HasFolder m → e.follow m (before ++ [name]) = .ok (step m name) :=
    fun e he => (e.follow_append _ _ _ _).mpr ⟨m, follow_dots he hbefore, follow_singleton he name⟩
  rw [hend d hfolder] at hlast
  obtain rfl := Except.ok.inj hlast
  refine ⟨m, ⟨?_, hfolder⟩, fun e hreach => ?_⟩
  · rw [hstart]
    exact hm
  · rw [hsteps, follow_append, ← hstart]
    exact ⟨m, hreach.1, hend e hreach.2⟩

/-- A path that leads to no folder starts from one. -/
private theorem hasFolder_start (h : d.find p = .ok loc) (hloc : ¬d.HasFolder loc) :
    d.HasFolder (d.start p) := by
  have hp := text_ne_empty h
  have hslash := endsInSlash_of_not_hasFolder h hloc
  rw [find_of_endsInSlash_eq_false hp hslash] at h
  cases hsteps : p.steps with
  | nil =>
    rw [Path.endsInSlash_of_steps_eq_nil hsteps hp] at hslash
    cases hslash
  | cons name names =>
    rw [hsteps] at h
    exact hasFolder_of_follow_cons h

/-- Above the place of a file is a folder, to which the path of the folder above leads. Where that
folder is, the place is found. -/
theorem exists_reachesFolder (h : d.find p = .ok loc) (hloc : ¬d.HasFolder loc) : ∃ q m,
    p.parent? = some q ∧ d.ReachesFolder q m ∧
      ∀ e : Disk, e.ReachesFolder q m → e.find p = .ok loc := by
  have hstart := hasFolder_start h hloc
  have hp := text_ne_empty h
  have hslash := endsInSlash_of_not_hasFolder h hloc
  rw [find_of_endsInSlash_eq_false hp hslash] at h
  cases hparent : p.parent? with
  | none =>
    -- only idle steps would lead to where the path starts
    have hdots := follow_dots hstart fun x hx => Path.eq_dot_of_parent?_eq_none hparent hx
    rw [h] at hdots
    exact absurd (Except.ok.inj hdots ▸ hstart) hloc
  | some q =>
    obtain ⟨habsolute, before, name, behind, hsteps, hbefore, hbehind⟩ :=
      Path.steps_of_parent? hparent
    have hsplit : p.steps = (q.steps ++ (before ++ [name])) ++ behind := by
      rw [hsteps]
      simp
    have hfollow := h
    rw [hsplit] at hfollow
    obtain rfl := eq_nil_of_follow hfollow hloc hbehind
    rw [List.append_nil] at hsplit
    obtain ⟨m, hreach, hfind⟩ := exists_reachesFolder_of_follow habsolute hsplit hbefore h
    refine ⟨q, m, rfl, hreach, fun e he => ?_⟩
    rw [find_of_endsInSlash_eq_false hp hslash]
    exact hfind e he

/-! ### Making folders -/

/-- The last attempt to make a folder: one that is there is as good as a new one. -/
def settle (d : Disk) (p : Path) : Disk × Except IoError Unit :=
  match d.makeFolder p with
  | .ok d => (d, .ok ())
  | .error err => (d, if d.isFolder p then .ok () else .error err)

theorem makeChain_cons (d : Disk) (p : Path) (above : List Path) :
    d.makeChain (p :: above) =
      if p.text = "" then (d, .ok ())
      else
        match d.makeFolder p with
        | .error .notFound =>
          match d.makeChain above with
          | (d, .error err) => (d, .error err)
          | (d, .ok ()) => d.settle p
        | _ => d.settle p :=
  rfl

/-- The nearest folder is the first to be tried. -/
private theorem exists_ancestorsUpTo (fuel : Nat) (p : Path) :
    ∃ above, Path.ancestorsUpTo fuel p = p :: above := by
  cases fuel with
  | zero => exact ⟨[], rfl⟩
  | succ fuel =>
    rw [Path.ancestorsUpTo]
    cases p.parent? with
    | none => exact ⟨[], rfl⟩
    | some q => exact ⟨_, rfl⟩

/-- A folder is not made twice. -/
theorem makeFolder_of_reachesFolder (hq : q.text ≠ "") (h : d.ReachesFolder q m) :
    d.makeFolder q = .error .alreadyExists := by
  obtain ⟨mode, hmode⟩ := h.2
  rw [makeFolder, followFrom_of_text hq, h.1]
  simp only [bind, Except.bind, hmode]

theorem settle_of_reachesFolder (hq : q.text ≠ "") (h : d.ReachesFolder q m) :
    d.settle q = (d, .ok ()) := by
  obtain ⟨mode, hmode⟩ := h.2
  have hthere : d.isFolder q = true := by
    rw [isFolder, stat_of_find (find_of_reachesFolder hq h) hmode]
  rw [settle, makeFolder_of_reachesFolder hq h]
  simp only [hthere, if_true]

/-- Where a folder is there already, nothing is made. -/
theorem makeFolders_of_reachesFolder (h : d.ReachesFolder q m) :
    d.makeFolders q = (d, .ok ()) := by
  obtain ⟨above, habove⟩ := exists_ancestorsUpTo q.segments.length q
  rw [makeFolders, Path.ancestors, habove, makeChain_cons]
  by_cases hq : q.text = ""
  · rw [if_pos hq]
  · rw [if_neg hq, makeFolder_of_reachesFolder hq h]
    exact settle_of_reachesFolder hq h

/-- A folder that is there already need not be made. -/
theorem makeFolders_of_hasFolder (h : d.find p = .ok loc) (hfolder : d.HasFolder loc) :
    d.makeFolders p = (d, .ok ()) := by
  have hfollow := followFrom_steps h
  rw [followFrom_of_text (text_ne_empty h)] at hfollow
  exact makeFolders_of_reachesFolder ⟨hfollow, hfolder⟩

/-- The attempt to make a folder that is on a disk with the same files, with all folders above it
there: it is made, or is there already. -/
private theorem makeFolder_cases (hq : q.text ≠ "") (he : d.AltersFolders e) (hm : e.HasFolder m)
    (hfollow : d.follow (d.start q) q.steps = .ok m) :
    d.makeFolder q = .ok (d.put m (.folder 0o755)) ∧ d.node? m = none ∨
      d.makeFolder q = .error .alreadyExists ∧ d.HasFolder m := by
  cases hn : d.node? m with
  | none =>
    refine .inl ⟨?_, rfl⟩
    rw [makeFolder, followFrom_of_text hq, hfollow]
    simp only [bind, Except.bind, hn]
    rfl
  | some node =>
    cases node with
    | file data => exact absurd hm (not_hasFolder_of_file (he.file_iff.mpr hn))
    | folder mode =>
      have hfolder : d.HasFolder m := ⟨mode, hn⟩
      exact .inr ⟨makeFolder_of_reachesFolder hq ⟨hfollow, hfolder⟩, hfolder⟩

/-- Making folders comes to a good end: the folder is there, and nothing is new but folders that are
on another disk as well. -/
structure MakesWithin (d e : Disk) (q : Path) (m : Location) (r : Disk × Except IoError Unit) :
    Prop where
  result_eq : r.2 = .ok ()
  altersFolders : d.AltersFolders r.1
  within : r.1.AltersFolders e
  reaches : r.1.ReachesFolder q m

/-- With all folders above it there, a folder is made or is there already. -/
private theorem makesWithin_settle (hq : q.text ≠ "") (he : d.AltersFolders e) (hm : e.HasFolder m)
    (hfollow : d.follow (d.start q) q.steps = .ok m) : d.MakesWithin e q m (d.settle q) := by
  obtain ⟨hmade, hnone⟩ | ⟨-, hfolder⟩ := makeFolder_cases hq he hm hfollow
  · have halters : d.AltersFolders (d.put m (.folder 0o755)) := .put (.inl hnone) _
    rw [settle, hmade]
    refine ⟨rfl, halters, ⟨he.workingFolder_eq, fun l => ?_⟩, ?_, ?_⟩
    · by_cases hl : l = m
      · subst hl
        exact .inr ⟨hm, .inr ⟨0o755, by rw [node?_put, if_pos rfl]⟩⟩
      · simpa only [HasFolder, node?_put, if_neg hl] using he.node?_cases l
    · exact halters.keepsFolders.follow hfollow
    · exact ⟨0o755, by rw [node?_put, if_pos rfl]⟩
  · have hreach : d.ReachesFolder q m := ⟨hfollow, hfolder⟩
    rw [settle_of_reachesFolder hq hreach]
    exact ⟨rfl, .refl d, he, hreach⟩

/-- Where only the nearest folder is missing, the ones above it are not tried. -/
private theorem makesWithin_makeChain_of_follow (he : d.AltersFolders e) (hm : e.HasFolder m)
    (hstart : d.HasFolder (d.start q)) (hfollow : d.follow (d.start q) q.steps = .ok m)
    (above : List Path) : d.MakesWithin e q m (d.makeChain (q :: above)) := by
  rw [makeChain_cons]
  by_cases hq : q.text = ""
  · obtain rfl : q = ⟨""⟩ := by
      cases q
      exact congrArg _ hq
    obtain rfl := Except.ok.inj hfollow
    rw [if_pos rfl]
    exact ⟨rfl, .refl d, he, rfl, hstart⟩
  · have hsettle := makesWithin_settle hq he hm hfollow
    rw [if_neg hq]
    obtain ⟨hmade, -⟩ | ⟨hrefused, -⟩ := makeFolder_cases hq he hm hfollow
    · simp only [hmade]
      exact hsettle
    · simp only [hrefused]
      exact hsettle

private theorem AltersFolders.start_eq (h : d.AltersFolders e) (p : Path) :
    e.start p = d.start p := by
  rw [start, h.workingFolder_eq, start]

/-- A path without steps leads to where it starts, and nothing has to be made. -/
private theorem makesWithin_makeChain_of_steps_eq_nil (he : d.AltersFolders e)
    (hstart : d.HasFolder (d.start q)) (hreach : e.ReachesFolder q m) (hsteps : q.steps = [])
    (above : List Path) : d.MakesWithin e q m (d.makeChain (q :: above)) := by
  have hm := hreach.1
  rw [hsteps, he.start_eq] at hm
  obtain rfl := Except.ok.inj hm
  refine makesWithin_makeChain_of_follow he hreach.2 hstart ?_ above
  rw [hsteps]
  rfl

/-- The folders above a folder are made as far as it needs them. -/
theorem makesWithin_makeChain {fuel : Nat} (hq : q.IsTidy) (hfuel : q.steps.length ≤ fuel)
    (hstart : d.HasFolder (d.start q)) (he : d.AltersFolders e) (hreach : e.ReachesFolder q m) :
    d.MakesWithin e q m (d.makeChain (Path.ancestorsUpTo fuel q)) := by
  induction fuel generalizing q m with
  | zero =>
    have hsteps : q.steps = [] := List.length_eq_zero_iff.mp (Nat.le_zero.mp hfuel)
    exact makesWithin_makeChain_of_steps_eq_nil he hstart hreach hsteps []
  | succ fuel ih =>
    rw [Path.ancestorsUpTo]
    cases hparent : q.parent? with
    | none =>
      have hsteps := Path.steps_eq_nil_of_parent?_eq_none hq hparent
      exact makesWithin_makeChain_of_steps_eq_nil he hstart hreach hsteps []
    | some r =>
      dsimp only
      cases hfollow : d.follow (d.start q) q.steps with
      | ok l =>
        have hl := eq_foldl_of_follow hfollow
        rw [← he.start_eq, ← eq_foldl_of_follow hreach.1] at hl
        exact makesWithin_makeChain_of_follow he hreach.2 hstart (hl ▸ hfollow) _
      | error err =>
        obtain rfl | rfl := error_cases_of_follow hfollow
        · have hblocked := he.notDirectory_of_follow hfollow
          rw [← he.start_eq, hreach.1] at hblocked
          cases hblocked
        · -- the folder above is made first, and then nothing is in the way
          obtain ⟨before, name, hsteps, hbefore⟩ := Path.steps_of_parent?_of_isTidy hq hparent
          have habsolute := (Path.steps_of_parent? hparent).1
          have htext : q.text ≠ "" := by
            intro htext
            rw [Path.steps_of_text_eq_empty htext] at hfollow
            cases hfollow
          obtain ⟨n, hn, hback⟩ :=
            exists_reachesFolder_of_follow habsolute hsteps hbefore hreach.1
          have hlength : r.steps.length ≤ fuel := by
            have hle := hfuel
            rw [hsteps, List.length_append, List.length_append, List.length_singleton] at hle
            omega
          have hrstart : d.HasFolder (d.start r) := by
            rw [start, habsolute]
            exact hstart
          have habove := ih (Path.isTidy_of_parent? hparent) hlength hrstart hn
          have hrefused : d.makeFolder q = .error .notFound := by
            rw [makeFolder, followFrom_of_text htext, hfollow]
            rfl
          rw [makeChain_cons, if_neg htext, hrefused]
          dsimp only
          generalize d.makeChain (Path.ancestorsUpTo fuel r) = chain at habove ⊢
          obtain ⟨d₁, result⟩ := chain
          obtain rfl : result = .ok () := habove.result_eq
          have hlast := makesWithin_settle htext habove.within hreach.2 (hback d₁ habove.reaches)
          exact ⟨hlast.result_eq, habove.altersFolders.trans hlast.altersFolders, hlast.within,
            hlast.reaches⟩

/-! ### Places for files -/

/-- A file can be written at a path: the path starts in a folder, and when folders are made, it
leads to a place that no folder takes. -/
structure Writable (d : Disk) (p : Path) : Prop where
  start : d.HasFolder (d.start p)
  place : ∃ e loc, d.AltersFolders e ∧ e.find p = .ok loc ∧ ¬e.HasFolder loc

/-- The folder above a place for a file is made, and the place stays free. -/
theorem Writable.makeFolders (h : d.Writable p) : ∃ q, p.parent? = some q ∧
    (d.makeFolders q).2 = .ok () ∧
      ∃ loc, (d.makeFolders q).1.find p = .ok loc ∧ ¬(d.makeFolders q).1.HasFolder loc := by
  obtain ⟨e, loc, he, hfind, hloc⟩ := h.place
  obtain ⟨q, m, hparent, hreach, hback⟩ := exists_reachesFolder hfind hloc
  have hstart : d.HasFolder (d.start q) := by
    rw [Disk.start, (Path.steps_of_parent? hparent).1]
    exact h.start
  have hmakes := makesWithin_makeChain (Path.isTidy_of_parent? hparent) (Path.length_steps_le q)
    hstart he hreach
  exact ⟨q, hparent, hmakes.result_eq, loc, hback _ hmakes.reaches,
    fun hfolder => hloc (hmakes.within.keepsFolders.hasFolder hfolder)⟩

end BlobCache.Disk
