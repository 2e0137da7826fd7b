import BlobCache.Proofs.Disk.File

/-!
# Interrupted sequences of operations

A sequence of operations on files need not come to its end: the process is stopped, or the device
fails. `Disk.Stops d ops d'` says that carrying out `ops` on the disk `d` may stop with the disk
`d'`. It may stop between two operations, and inside one that writes, when some of the bytes are
written; an operation that makes, moves or empties a file is carried out or not. Bytes that were
written and are lost again because they had not reached the device make no further case: the disk is
then one at which the sequence might have stopped earlier.

* `stops_perform`: a device that fails leaves no other disks.
* `Stops.altersOnly`: as long as the operations work on one file, the sequence may stop wherever it
  likes, and everything else is as it was.
* `stops_placement`: for a file that is prepared under another name and then moved, this means that
  there is all of it or nothing.
-/

namespace BlobCache

/-- An operation that works on the file under a path and on no other. -/
inductive FileOperation.WorksOn (p : Path) : FileOperation → Prop
  | create : WorksOn p (.create p)
  | append (data : Bytes) : WorksOn p (.append p data)
  | sync : WorksOn p (.sync p)

/-- Moving a file writes nothing. -/
theorem FileOperation.rename_ne_append (source target path : Path) (data : Bytes) :
    rename source target ≠ append path data := nofun

namespace Disk

variable {d d' d'' : Disk} {p q : Path} {loc goal : Location} {op : FileOperation}
  {ops : List FileOperation}

/-- Carrying out operations on a disk may stop with another one. -/
inductive Stops : Disk → List FileOperation → Disk → Prop
  /-- It stops before the next operation, or after the last one. -/
  | here (d : Disk) (ops : List FileOperation) : Stops d ops d
  /-- It stops when some of the bytes are written. -/
  | within {d d' : Disk} {p : Path} {data : Bytes} (written : Nat) (ops : List FileOperation)
      (h : d.appendFile p (data.take written) = .ok d') : Stops d (.append p data :: ops) d'
  /-- It stops after the first operation. -/
  | later {d d₁ d' : Disk} {op : FileOperation} {ops : List FileOperation}
      (h : op.apply d = .ok d₁) (hs : Stops d₁ ops d') : Stops d (op :: ops) d'

/-- A device that fails is one that may stop inside the operation it fails at. -/
private theorem stops_interrupted (d : Disk) (op : FileOperation) (ops : List FileOperation)
    (written : Nat) : d.Stops (op :: ops) (op.interrupted d written) := by
  -- only an append leaves something of itself
  cases op with
  | append path data =>
    change d.Stops _ (((d.appendFile path (data.take written)).toOption).getD d)
    cases happend : d.appendFile path (data.take written) with
    | ok d₁ => exact .within written ops happend
    | error e => exact .here d _
  | create path => exact .here d _
  | sync path => exact .here d _
  | rename source target => exact .here d _

/-- The device fails at the first operation, or carries it out, or the operation is refused. -/
theorem perform_cons_cases (d : Disk) (op : FileOperation) (ops : List FileOperation)
    (responses : List Response) :
    (∃ written,
        d.perform (op :: ops) responses = (op.interrupted d written, .error deviceFailure)) ∨
      (∃ d₁, op.apply d = .ok d₁ ∧
        d.perform (op :: ops) responses = d₁.perform ops responses.tail) ∨
      ∃ e, op.apply d = .error e ∧ d.perform (op :: ops) responses = (d, .error e) := by
  rw [perform]
  split
  · exact .inl ⟨_, rfl⟩
  · cases happly : op.apply d with
    | ok d₁ => exact .inr (.inl ⟨d₁, rfl, rfl⟩)
    | error e => exact .inr (.inr ⟨e, rfl, rfl⟩)

/-- What a device leaves when it fails is a disk at which the sequence may stop. -/
theorem stops_perform (d : Disk) (ops : List FileOperation) (responses : List Response) :
    d.Stops ops (d.perform ops responses).1 := by
  induction ops generalizing d responses with
  | nil => exact .here d []
  | cons op ops ih =>
    obtain ⟨written, hp⟩ | ⟨d₁, happly, hp⟩ | ⟨e, -, hp⟩ := d.perform_cons_cases op ops responses
    · rw [hp]
      exact d.stops_interrupted op ops written
    · rw [hp]
      exact .later happly (ih d₁ responses.tail)
    · rw [hp]
      exact .here d (op :: ops)

/-! ### Operations on one file -/

/-- Two disks differ at one location at most, where no folder was lost. -/
structure AltersOnly (d d' : Disk) (loc : Location) : Prop where
  keepsFolders : d.KeepsFolders d'
  node?_eq : ∀ l, l ≠ loc → d'.node? l = d.node? l

namespace AltersOnly

theorem refl (d : Disk) (loc : Location) : d.AltersOnly d loc :=
  ⟨⟨rfl, fun h => h⟩, fun _ _ => rfl⟩

theorem trans (h : d.AltersOnly d' loc) (h' : d'.AltersOnly d'' loc) : d.AltersOnly d'' loc :=
  ⟨h.keepsFolders.trans h'.keepsFolders, fun l hl => (h'.node?_eq l hl).trans (h.node?_eq l hl)⟩

theorem put (h : ¬d.HasFolder loc) (node : Node) : d.AltersOnly (d.put loc node) loc :=
  ⟨.put h node, fun l hl => by rw [node?_put, if_neg hl]⟩

theorem erase (h : ¬d.HasFolder loc) : d.AltersOnly (d.erase loc) loc :=
  ⟨.erase h, fun l hl => by rw [node?_erase, if_neg hl]⟩

end AltersOnly

/-- What is taken away is a file. -/
theorem exists_of_removeFile (h : d.find p = .ok loc) (hr : d.removeFile p = .ok d') :
    (∃ data, d.node? loc = some (.file data)) ∧ d' = d.erase loc := by
  cases hn : d.node? loc with
  | none =>
    rw [removeFile_of_find_none h hn] at hr
    cases hr
  | some node =>
    cases node with
    | folder mode =>
      rw [removeFile_of_hasFolder h ⟨mode, hn⟩] at hr
      cases hr
    | file data =>
      rw [removeFile_of_find h hn] at hr
      cases hr
      exact ⟨⟨data, rfl⟩, rfl⟩

theorem altersOnly_removeFile (h : d.find p = .ok loc) (hr : d.removeFile p = .ok d') :
    d.AltersOnly d' loc := by
  obtain ⟨⟨data, hn⟩, rfl⟩ := exists_of_removeFile h hr
  exact .erase (not_hasFolder_of_file hn)

private theorem exists_of_appendFile (h : d.find p = .ok loc) {data : Bytes}
    (ha : d.appendFile p data = .ok d') :
    ∃ old, d.node? loc = some (.file old) ∧ d' = d.put loc (.file (old ++ data)) := by
  cases hn : d.node? loc with
  | none =>
    rw [appendFile, h] at ha
    simp [bind, Except.bind, hn] at ha
  | some node =>
    cases node with
    | folder mode =>
      rw [appendFile, h] at ha
      simp [bind, Except.bind, hn] at ha
    | file old =>
      rw [appendFile_of_find h hn] at ha
      exact ⟨old, rfl, (Except.ok.inj ha).symm⟩

private theorem altersOnly_appendFile (h : d.find p = .ok loc) {data : Bytes}
    (ha : d.appendFile p data = .ok d') : d.AltersOnly d' loc := by
  obtain ⟨old, hn, rfl⟩ := exists_of_appendFile h ha
  exact .put (not_hasFolder_of_file hn) _

/-- An operation on one file changes nothing, or leaves a file where no folder is. -/
private theorem eq_or_eq_put_of_apply (h : d.find p = .ok loc) (hop : op.WorksOn p)
    (ha : op.apply d = .ok d') :
    d' = d ∨ ¬d.HasFolder loc ∧ ∃ data, d' = d.put loc (.file data) := by
  cases hop with
  | create =>
    have hfolder : ¬d.HasFolder loc := fun hfolder => by
      rw [FileOperation.apply, createFile_of_hasFolder h hfolder] at ha
      cases ha
    rw [FileOperation.apply, createFile_of_find h hfolder] at ha
    exact .inr ⟨hfolder, [], (Except.ok.inj ha).symm⟩
  | append data =>
    obtain ⟨old, hn, rfl⟩ := exists_of_appendFile h ha
    exact .inr ⟨not_hasFolder_of_file hn, _, rfl⟩
  | sync =>
    rw [FileOperation.apply] at ha
    cases hstat : d.stat p with
    | error e =>
      rw [hstat] at ha
      cases ha
    | ok node =>
      rw [hstat] at ha
      exact .inl (Except.ok.inj ha).symm

/-- An operation on one file leaves the others alone. -/
theorem altersOnly_apply (h : d.find p = .ok loc) (hop : op.WorksOn p)
    (ha : op.apply d = .ok d') : d.AltersOnly d' loc := by
  obtain rfl | ⟨hfolder, data, rfl⟩ := eq_or_eq_put_of_apply h hop ha
  · exact .refl _ loc
  · exact .put hfolder _

/-- Operations on one file may stop anywhere and have left the others alone. -/
theorem Stops.altersOnly (hs : d.Stops ops d') (h : d.find p = .ok loc)
    (hops : ∀ op ∈ ops, op.WorksOn p) : d.AltersOnly d' loc := by
  induction hs with
  | here d ops => exact .refl d loc
  | within written ops happend =>
    cases hops _ List.mem_cons_self
    exact altersOnly_appendFile h happend
  | later happly hs ih =>
    have hfirst := altersOnly_apply h (hops _ List.mem_cons_self) happly
    exact hfirst.trans (ih (hfirst.keepsFolders.find h)
      fun op hop => hops op (List.mem_cons_of_mem _ hop))

/-- Operations on one file leave what was there, or a file. -/
theorem Stops.node?_eq_or_file (hs : d.Stops ops d') (h : d.find p = .ok loc)
    (hops : ∀ op ∈ ops, op.WorksOn p) :
    d'.node? loc = d.node? loc ∨ ∃ data, d'.node? loc = some (.file data) := by
  induction hs with
  | here d ops => exact .inl rfl
  | within written ops happend =>
    cases hops _ List.mem_cons_self
    obtain ⟨old, -, rfl⟩ := exists_of_appendFile h happend
    exact .inr ⟨_, (node?_put _ _ _ _).trans (if_pos rfl)⟩
  | later happly hs ih =>
    have hop := hops _ List.mem_cons_self
    have hfirst := altersOnly_apply h hop happly
    have hrest := ih (hfirst.keepsFolders.find h) fun op hop => hops op (List.mem_cons_of_mem _ hop)
    obtain heq | hfile := hrest
    · obtain rfl | ⟨-, data, rfl⟩ := eq_or_eq_put_of_apply h hop happly
      · exact .inl heq
      · exact .inr ⟨data, heq.trans ((node?_put _ _ _ _).trans (if_pos rfl))⟩
    · exact .inr hfile

/-! ### Putting a file in place -/

/-- A sequence whose last operation writes nothing stops before this operation or comes to its
end. -/
private theorem Stops.before_last (hs : d.Stops (ops ++ [op]) d')
    (hop : ∀ p data, op ≠ .append p data) :
    d.Stops ops d' ∨ d.perform (ops ++ [op]) [] = (d', .ok ()) := by
  induction ops generalizing d with
  | nil =>
    cases hs with
    | here => exact .inl (.here _ [])
    | within => exact absurd rfl (hop _ _)
    | later happly hs =>
      cases hs
      exact .inr (perform_cons_of_ok happly [])
  | cons first ops ih =>
    cases hs with
    | here => exact .inl (.here _ (first :: ops))
    | within written _ happend => exact .inl (.within written ops happend)
    | later happly hs =>
      obtain hs | hall := ih hs
      · exact .inl (.later happly hs)
      · exact .inr ((perform_cons_of_ok happly (ops ++ [op])).trans hall)

/-- A sequence that was carried out ends with its last operation. -/
private theorem perform_concat_of_ok (hall : d.perform (ops ++ [op]) [] = (d', .ok ())) :
    ∃ d₁, d.perform ops [] = (d₁, .ok ()) ∧ op.apply d₁ = .ok d' := by
  induction ops generalizing d with
  | nil =>
    obtain ⟨written, hp⟩ | ⟨d₁, happly, hp⟩ | ⟨e, -, hp⟩ := d.perform_cons_cases op [] []
    · rw [List.nil_append, hp] at hall
      cases hall
    · rw [List.nil_append, hp] at hall
      cases hall
      exact ⟨d, rfl, happly⟩
    · rw [List.nil_append, hp] at hall
      cases hall
  | cons first ops ih =>
    cases happly : first.apply d with
    | error e =>
      rw [List.cons_append, perform_cons_of_error happly] at hall
      cases hall
    | ok d₁ =>
      rw [List.cons_append, perform_cons_of_ok happly] at hall
      rw [perform_cons_of_ok happly]
      exact ih hall

/-- A device that carried a sequence out did what every device would do that complies. -/
private theorem perform_of_ok {responses : List Response}
    (h : d.perform ops responses = (d', .ok ())) :
    d.perform ops [] = (d', .ok ()) := by
  induction ops generalizing d responses with
  | nil => exact h
  | cons op ops ih =>
    obtain ⟨written, hp⟩ | ⟨d₁, happly, hp⟩ | ⟨e, -, hp⟩ := d.perform_cons_cases op ops responses
    · rw [hp] at h
      cases h
    · rw [hp] at h
      rw [perform_cons_of_ok happly]
      exact ih h
    · rw [hp] at h
      cases h

/-- A sequence that failed has stopped before its last operation is over, if this one writes
nothing. -/
theorem stops_of_perform_error {responses : List Response} {e : IoError}
    (hop : ∀ p data, op ≠ .append p data) (h : d.perform (ops ++ [op]) responses = (d', .error e)) :
    d.Stops ops d' := by
  have hinterrupted : ∀ (d : Disk) written, op.interrupted d written = d := fun d written => by
    cases op with
    | append path data => exact absurd rfl (hop path data)
    | create path => rfl
    | sync path => rfl
    | rename source target => rfl
  induction ops generalizing d responses with
  | nil =>
    obtain ⟨written, hp⟩ | ⟨d₁, happly, hp⟩ | ⟨_, -, hp⟩ := d.perform_cons_cases op [] responses
    · rw [List.nil_append, hp, hinterrupted] at h
      cases h
      exact .here _ []
    · rw [List.nil_append, hp] at h
      cases h
    · rw [List.nil_append, hp] at h
      cases h
      exact .here _ []
  | cons first ops ih =>
    obtain ⟨written, hp⟩ | ⟨d₁, happly, hp⟩ | ⟨_, -, hp⟩ :=
      d.perform_cons_cases first (ops ++ [op]) responses
    · rw [List.cons_append, hp] at h
      cases h
      exact d.stops_interrupted first ops written
    · rw [List.cons_append, hp] at h
      exact .later happly (ih h)
    · rw [List.cons_append, hp] at h
      cases h
      exact .here _ (first :: ops)

/-- While a file is prepared, no other file is worked on. -/
theorem worksOn_of_mem_preparation {header data : Bytes}
    (hop : op ∈ [.create p, .append p header, .append p data, .sync p]) : op.WorksOn p := by
  simp only [List.mem_cons, List.not_mem_nil, or_false] at hop
  rcases hop with rfl | rfl | rfl | rfl
  · exact .create
  · exact .append header
  · exact .append data
  · exact .sync

/-- A file that was prepared under one name and moved to another found no folder in its way, and is
in its place with all its contents. -/
private theorem placement_of_perform (h : d.find p = .ok loc) (hg : d.find q = .ok goal)
    (hne : goal ≠ loc) {header data : Bytes}
    (hall : d.perform [.create p, .append p header, .append p data, .sync p, .rename p q] [] =
      (d', .ok ())) :
    ¬d.HasFolder goal ∧ d.KeepsFolders d' ∧
      ∀ l, d'.node? l =
        if l = goal then some (.file (header ++ data))
        else if l = loc then none
        else d.node? l := by
  have hfolder : ¬d.HasFolder loc := fun hfolder => by
    have hrefused : (FileOperation.create p).apply d = .error .isDirectory :=
      createFile_of_hasFolder h hfolder
    rw [perform_cons_of_error hrefused] at hall
    cases hall
  have hgoal : ¬d.HasFolder goal := fun ⟨mode, hmode⟩ => by
    -- the folder is still there when the file is to be moved
    have hsplit : d.perform ([.create p, .append p header, .append p data, .sync p] ++
        [.rename p q]) [] = (d', .ok ()) := hall
    obtain ⟨d₁, hprepared, hrename⟩ := perform_concat_of_ok hsplit
    have hstops := d.stops_perform [.create p, .append p header, .append p data, .sync p] []
    rw [hprepared] at hstops
    have halters := hstops.altersOnly h fun op hop => worksOn_of_mem_preparation hop
    obtain ⟨e, he⟩ := renameFile_of_hasFolder (halters.keepsFolders.find h)
      (halters.keepsFolders.find hg) (d := d₁) ⟨mode, (halters.node?_eq goal hne).trans hmode⟩
    rw [FileOperation.apply, he] at hrename
    cases hrename
  obtain ⟨disk, hperform, hkeeps, hnodes⟩ :=
    perform_placement h hg hfolder hgoal hne header data
  obtain rfl : disk = d' := congrArg Prod.fst (hperform.symm.trans hall)
  exact ⟨hgoal, hkeeps, hnodes⟩

/-- Putting a file in place may stop anywhere: either the file is there with all its contents, or
only the name under which it was prepared has seen a change. The step that puts it there comes last
and is carried out or not (`Stops.before_last`); all steps before it work on the one file
(`Stops.altersOnly`). -/
theorem stops_placement (h : d.find p = .ok loc) (hg : d.find q = .ok goal) (hne : goal ≠ loc)
    {header data : Bytes}
    (hs : d.Stops [.create p, .append p header, .append p data, .sync p, .rename p q] d') :
    d.AltersOnly d' loc ∨
      d.KeepsFolders d' ∧ d'.node? goal = some (.file (header ++ data)) ∧
        ∀ l, l ≠ goal → l ≠ loc → d'.node? l = d.node? l := by
  have hlast := FileOperation.rename_ne_append p q
  have hsplit : d.Stops ([.create p, .append p header, .append p data, .sync p] ++ [.rename p q])
      d' := hs
  obtain hs | hall := hsplit.before_last hlast
  · exact .inl (hs.altersOnly h fun op hop => worksOn_of_mem_preparation hop)
  · obtain ⟨-, hkeeps, hnodes⟩ := placement_of_perform h hg hne hall
    refine .inr ⟨hkeeps, ?_, fun l hl hl' => ?_⟩
    · rw [hnodes, if_pos rfl]
    · rw [hnodes, if_neg hl, if_neg hl']

/-- A device either puts a file in place, or fails and has seen a change only to the name under
which the file was prepared. -/
theorem perform_placement_cases (h : d.find p = .ok loc) (hg : d.find q = .ok goal)
    (hne : goal ≠ loc) (header data : Bytes) (responses : List Response) :
    (∃ d' e, d.perform [.create p, .append p header, .append p data, .sync p, .rename p q]
        responses = (d', .error e) ∧ d.AltersOnly d' loc) ∨
      ∃ d', d.perform [.create p, .append p header, .append p data, .sync p, .rename p q]
          responses = (d', .ok ()) ∧ ¬d.HasFolder goal ∧ d.KeepsFolders d' ∧
        ∀ l, d'.node? l =
          if l = goal then some (.file (header ++ data))
          else if l = loc then none
          else d.node? l := by
  have hlast := FileOperation.rename_ne_append p q
  cases hperform : d.perform [.create p, .append p header, .append p data, .sync p, .rename p q]
    responses with
  | mk d' result =>
    cases result with
    | ok _ => exact .inr ⟨d', rfl, placement_of_perform h hg hne (perform_of_ok hperform)⟩
    | error e =>
      have hsplit : d.perform ([.create p, .append p header, .append p data, .sync p] ++
          [.rename p q]) responses = (d', .error e) := hperform
      have hs := stops_of_perform_error hlast hsplit
      exact .inl ⟨d', e, rfl, hs.altersOnly h fun op hop => worksOn_of_mem_preparation hop⟩

end Disk

end BlobCache
