import BlobCache.Proofs.ObjectDir.Forgetting

/-!
# Saves that fail

A save can fail before it asks anything of the disk, because the labels have no header or because
there is no free slot, and then it has changed nothing. It can fail at any step of putting the file
in place, and then it takes the temporary file away again.

`ObjectStore.unharmed_of_saveTidying_error` says what is left of a store after a save that failed,
whatever the folder holds and whatever the device refuses. The store knows what it knew, all that
is not the temporary file of the chosen slot is as it was, and no file is there that was not there
before. Of the device it is asked only that it deletes a temporary file that this save has made. One
that was left by an earlier save may be gone, or be emptied.
-/

namespace BlobCache

/-! ### Taking a file away -/

namespace Disk

variable {d d' : Disk} {p : Path} {loc : Location}

/-- A file that is to be taken away is gone, or the disk is as it was. The device has to refuse
for this, unless there is no file to take away. -/
private theorem removeFileOn_cases (d : Disk) (p : Path) (response : Response) :
    (∃ d', d.removeFile p = .ok d' ∧ (d.removeFileOn p response).toOption.getD d = d') ∨
      (d.removeFileOn p response).toOption.getD d = d ∧
        (response = .comply → ∃ e, d.removeFile p = .error e) := by
  cases response with
  | fail written => exact .inr ⟨rfl, nofun⟩
  | comply =>
    rw [removeFileOn]
    cases hremoved : d.removeFile p with
    | ok d' => exact .inl ⟨d', rfl, rfl⟩
    | error e => exact .inr ⟨rfl, fun _ => ⟨e, rfl⟩⟩

/-- The file under a path is about to be made by the first operation: it is not there, and neither
the device nor the disk refuses to make it. -/
structure Makes (d : Disk) (p : Path) (responses : List Response) : Prop where
  stat_eq : d.stat p = .error .notFound
  complies : ∀ written, responses.head? ≠ some (.fail written)
  exists_createFile : ∃ d', d.createFile p = .ok d'

/-- Operations that start with making a file do nothing at all if this is refused. -/
theorem perform_create_cases (d : Disk) (p : Path) (ops : List FileOperation)
    (responses : List Response) :
    (∃ e, d.perform (.create p :: ops) responses = (d, .error e)) ∨
      (∃ d', d.createFile p = .ok d') ∧ ∀ written, responses.head? ≠ some (.fail written) := by
  rw [perform]
  split
  · exact .inl ⟨deviceFailure, rfl⟩
  · rename_i hresponse
    rw [FileOperation.apply]
    cases hcreate : d.createFile p with
    | error e => exact .inl ⟨e, rfl⟩
    | ok d' => exact .inr ⟨⟨d', rfl⟩, hresponse⟩

/-- Nothing is there that was not, and nothing else than the file under a path has changed. -/
structure Spares (d : Disk) (p : Path) (d' : Disk) : Prop where
  keepsFolders : d.KeepsFolders d'
  node?_eq : ∀ l, d.find p ≠ .ok l → d'.node? l = d.node? l
  hasFolder_iff : ∀ l, d'.HasFolder l ↔ d.HasFolder l
  exists_file : ∀ l data, d'.node? l = some (.file data) → ∃ old, d.node? l = some (.file old)

namespace Spares

theorem refl (d : Disk) (p : Path) : d.Spares p d :=
  ⟨⟨rfl, fun h => h⟩, fun _ _ => rfl, fun _ => Iff.rfl, fun _ data h => ⟨data, h⟩⟩

/-- Where only one location is altered, it matters what has become of this one. -/
theorem of_altersOnly (h : d.AltersOnly d' loc) (hfind : d.find p = .ok loc)
    (hloc : d'.node? loc = d.node? loc ∨ ¬d'.HasFolder loc ∧
      ∀ data, d'.node? loc = some (.file data) → ∃ old, d.node? loc = some (.file old)) :
    d.Spares p d' where
  keepsFolders := h.keepsFolders
  node?_eq l hl := by
    refine h.node?_eq l ?_
    rintro rfl
    exact hl hfind
  hasFolder_iff l := by
    by_cases hl : l = loc
    · subst hl
      obtain heq | ⟨hnot, -⟩ := hloc
      · rw [HasFolder, HasFolder, heq]
      · exact iff_of_false hnot fun hfolder => hnot (h.keepsFolders.hasFolder hfolder)
    · rw [HasFolder, HasFolder, h.node?_eq l hl]
  exists_file l data hfile := by
    by_cases hl : l = loc
    · subst hl
      obtain heq | ⟨-, hold⟩ := hloc
      · exact ⟨data, heq ▸ hfile⟩
      · exact hold data hfile
    · exact ⟨data, h.node?_eq l hl ▸ hfile⟩

/-- Deleting the file under a path leaves nothing of it, if the device deletes a file that was not
there before. -/
theorem removeFileOn (h : d.AltersOnly d' loc) (hfind : d.find p = .ok loc)
    (hloc : d'.node? loc = d.node? loc ∨ ∃ data, d'.node? loc = some (.file data))
    {response : Response}
    (hdevice : d.node? loc = none → d'.node? loc ≠ none → response = .comply) :
    d.Spares p ((d'.removeFileOn p response).toOption.getD d') := by
  have hfind' : d'.find p = .ok loc := h.keepsFolders.find hfind
  obtain ⟨d₁, hremoved, heq⟩ | ⟨heq, hrefused⟩ := d'.removeFileOn_cases p response
  · rw [heq]
    have hgone : d₁.node? loc = none := by
      obtain ⟨-, rfl⟩ := exists_of_removeFile hfind' hremoved
      exact (node?_erase _ _ _).trans (if_pos rfl)
    refine .of_altersOnly (h.trans (altersOnly_removeFile hfind' hremoved)) hfind ?_
    exact .inr ⟨not_hasFolder_of_none hgone, fun data hfile => nomatch hgone.symm.trans hfile⟩
  · rw [heq]
    refine .of_altersOnly h hfind ?_
    obtain hsame | ⟨data, hfile⟩ := hloc
    · exact .inl hsame
    refine .inr ⟨not_hasFolder_of_file hfile, fun _ _ => ?_⟩
    cases hn : d.node? loc with
    | none =>
      -- the file is new, so that it was deleted after all
      have hnew : d'.node? loc ≠ none := by
        rw [hfile]
        exact Option.some_ne_none _
      obtain ⟨e, he⟩ := hrefused (hdevice hn hnew)
      rw [removeFile_of_find hfind' hfile] at he
      cases he
    | some node =>
      cases node with
      | file old => exact ⟨old, rfl⟩
      | folder mode =>
        exact absurd (h.keepsFolders.hasFolder ⟨mode, hn⟩) (not_hasFolder_of_file hfile)

end Spares

/-- A file that was to be prepared and is taken away again has left nothing. -/
private theorem spares_of_perform_error {q : Path} {header data : Bytes} {responses : List Response}
    {response : Response} {e : IoError} (hdevice : d.Makes p responses → response = .comply)
    (hperform : d.perform [.create p, .append p header, .append p data, .sync p, .rename p q]
      responses = (d', .error e)) :
    d.Spares p ((d'.removeFileOn p response).toOption.getD d') := by
  have hcases := d.perform_create_cases p [.append p header, .append p data, .sync p, .rename p q]
    responses
  rw [hperform] at hcases
  cases hfind : d.find p with
  | error cause =>
    -- the path leads nowhere, so that the file can be neither made nor deleted
    have hcreate : d.createFile p = .error cause := by
      rw [createFile, hfind]
      rfl
    have hremove : d.removeFile p = .error cause := by
      rw [removeFile, hfind]
      rfl
    obtain ⟨_, hnothing⟩ | ⟨⟨d₁, hd₁⟩, -⟩ := hcases
    · obtain rfl : d' = d := congrArg Prod.fst hnothing
      obtain ⟨d₁, hd₁, -⟩ | ⟨hsame, -⟩ := d'.removeFileOn_cases p response
      · rw [hremove] at hd₁
        cases hd₁
      · rw [hsame]
        exact .refl d' p
    · rw [hcreate] at hd₁
      cases hd₁
  | ok loc =>
    have hlast := FileOperation.rename_ne_append p q
    have hsplit : d.perform ([.create p, .append p header, .append p data, .sync p] ++
        [.rename p q]) responses = (d', .error e) := hperform
    have hstops := stops_of_perform_error hlast hsplit
    have hworks : ∀ op ∈ [.create p, .append p header, .append p data, .sync p],
        FileOperation.WorksOn p op := fun op hop => worksOn_of_mem_preparation hop
    refine .removeFileOn (hstops.altersOnly hfind hworks) hfind
      (hstops.node?_eq_or_file hfind hworks) fun hnone hnew => ?_
    obtain ⟨_, hnothing⟩ | ⟨hcreate, hresponse⟩ := hcases
    · obtain rfl : d' = d := congrArg Prod.fst hnothing
      exact absurd hnone hnew
    · exact hdevice ⟨stat_of_find_none hfind hnone, hresponse, hcreate⟩

end Disk

namespace ObjectStore

variable {s : ObjectStore} {responses : List Response} {tidying : Response} {labels : Labels}
  {data : Bytes}

/-- What is left of a store after a save that failed. -/
structure Unharmed (s s' : ObjectStore) : Prop where
  /-- The store knows what it knew. -/
  dir_eq : s'.dir = s.dir
  workingFolder_eq : s'.disk.workingFolder = s.disk.workingFolder
  /-- Only the temporary file of the chosen slot may have seen a change. -/
  node?_eq : ∀ l, (∀ n, s.dir.freeSlot? = some n →
    s.disk.find (s.dir.temporaryPath n) ≠ .ok l) → s'.disk.node? l = s.disk.node? l
  hasFolder_iff : ∀ l, s'.disk.HasFolder l ↔ s.disk.HasFolder l
  /-- Where a file is, there has been one. -/
  exists_file : ∀ l file, s'.disk.node? l = some (.file file) →
    ∃ old, s.disk.node? l = some (.file old)

theorem Unharmed.refl (s : ObjectStore) : s.Unharmed s :=
  ⟨rfl, rfl, fun _ _ => rfl, fun _ => Iff.rfl, fun _ file h => ⟨file, h⟩⟩

/-- There is no free slot if every slot is recorded. -/
private theorem freeSlot?_eq_none (h : ∀ n < s.dir.limit, n ∈ s.dir.slots) :
    s.dir.freeSlot? = none := by
  rw [Option.eq_none_iff_forall_ne_some]
  intro n hn
  obtain ⟨hlt, hnot, -⟩ := ObjectDir.freeSlot?_eq_some_iff.mp hn
  exact hnot (h n hlt)

/-- A save that has a slot and fails was refused by the disk, and has left nothing there that was
not there before (`Disk.spares_of_perform_error`). -/
private theorem unharmed_of_freeSlot {header : Bytes} {n : Nat}
    (hheader : labels.header = .ok header) (hfree : s.dir.freeSlot? = some n)
    (hdevice : s.disk.Makes (s.dir.temporaryPath n) responses → tidying = .comply)
    {error : CacheError} (herror : (saveTidying responses tidying labels data s).result =
      .error error) :
    s.Unharmed (saveTidying responses tidying labels data s).state := by
  rcases hperform : s.disk.perform (s.dir.placement n header data) responses with ⟨disk, cause | _⟩
  · have hspares := Disk.spares_of_perform_error hdevice hperform
    rw [(saveTidying_of_not_placed hheader hfree hperform).2]
    exact
      { dir_eq := rfl
        workingFolder_eq := hspares.keepsFolders.workingFolder_eq
        node?_eq := fun l hl => hspares.node?_eq l (hl n hfree)
        hasFolder_iff := hspares.hasFolder_iff
        exists_file := hspares.exists_file }
  · rw [(saveTidying_of_placed hheader hfree hperform).1] at herror
    cases herror

/-- A save that fails leaves the store unharmed, for whatever reason it fails. -/
theorem unharmed_of_error
    (hdevice : ∀ n, s.dir.freeSlot? = some n →
      s.disk.Makes (s.dir.temporaryPath n) responses → tidying = .comply)
    {error : CacheError}
    (herror : (saveTidying responses tidying labels data s).result = .error error) :
    s.Unharmed (saveTidying responses tidying labels data s).state := by
  cases hheader : labels.header with
  | error e =>
    rw [saveTidying_of_header_error hheader]
    exact .refl s
  | ok header =>
    cases hfree : s.dir.freeSlot? with
    | none =>
      rw [saveTidying_of_full hheader hfree]
      exact .refl s
    | some n => exact unharmed_of_freeSlot hheader hfree (hdevice n hfree) herror

/-- Labels that cannot be written, or a directory that is full, stop a save before it has done
anything. -/
private theorem saveTidying_of_refused (h : ¬labels.Writable ∨ ∀ n < s.dir.limit, n ∈ s.dir.slots) :
    ∃ error, saveTidying responses tidying labels data s = Action.fail error s := by
  cases hheader : labels.header with
  | error e => exact ⟨_, saveTidying_of_header_error hheader s⟩
  | ok header =>
    obtain hwritable | hfull := h
    · exact absurd (Labels.exists_header_iff.mp ⟨header, hheader⟩) hwritable
    · exact ⟨_, saveTidying_of_full hheader (freeSlot?_eq_none hfull)⟩

/-- **Failed saves.** Labels that cannot be written and a directory that is full make a save fail
with the store and the disk as they were. Whatever else makes it fail, the store knows what it knew,
and on the disk nothing is there that was not there before and nothing has changed but the temporary
file of the chosen slot (`unharmed_of_error`). The device may refuse anything but to delete a
temporary file that was made by this save. -/
theorem unharmed_of_saveTidying_error (s : ObjectStore) (responses : List Response)
    (tidying : Response) (labels : Labels) (data : Bytes)
    (hdevice : ∀ n, s.dir.freeSlot? = some n →
      s.disk.Makes (s.dir.temporaryPath n) responses → tidying = .comply) :
    let after := saveTidying responses tidying labels data s
    (¬labels.Writable ∨ (∀ n < s.dir.limit, n ∈ s.dir.slots) →
      (∃ error, after.result = .error error) ∧ after.state = s) ∧
    ∀ error, after.result = .error error →
      after.state.dir.fileCount = s.dir.fileCount ∧
        after.state.dir.filenames = s.dir.filenames ∧ s.Unharmed after.state := by
  intro after
  constructor
  · intro hrefused
    obtain ⟨error, hafter⟩ : ∃ error, after = Action.fail error s := saveTidying_of_refused hrefused
    rw [hafter]
    exact ⟨⟨error, rfl⟩, rfl⟩
  · intro error herror
    have hunharmed : s.Unharmed after.state := unharmed_of_error hdevice herror
    exact ⟨congrArg ObjectDir.fileCount hunharmed.dir_eq,
      congrArg ObjectDir.filenames hunharmed.dir_eq, hunharmed⟩

/-- Where a folder is in the place of the slot, the file is made and cannot be moved. -/
theorem unharmed_of_saveTidying_error_folder :
    let s := blockedStore.crossedOff 0
    let after := saveTidying [] .comply ⟨[("k", "v")]⟩ [1] s
    (s.disk.Makes (s.dir.temporaryPath 0) [] ∧
      after.result = .error (.writeFailed "writing /o/0" (some .isDirectory))) ∧
    after.state.dir.fileCount = s.dir.fileCount ∧ after.state.dir.filenames = s.dir.filenames ∧
      s.Unharmed after.state := by
  have hmakes : (blockedStore.crossedOff 0).disk.Makes
      ((blockedStore.crossedOff 0).dir.temporaryPath 0) [] := ⟨by rfl, nofun, ⟨_, by rfl⟩⟩
  have herror : (saveTidying [] .comply ⟨[("k", "v")]⟩ [1] (blockedStore.crossedOff 0)).result =
      .error (.writeFailed "writing /o/0" (some .isDirectory)) := by rfl
  have h := unharmed_of_saveTidying_error (blockedStore.crossedOff 0) [] .comply ⟨[("k", "v")]⟩ [1]
    fun _ _ _ => rfl
  exact ⟨⟨hmakes, herror⟩, h.2 _ herror⟩

end ObjectStore

end BlobCache
