import BlobCache.ObjectDir.Basic
import BlobCache.Proofs.Action
import BlobCache.Proofs.Disk.File
import BlobCache.Proofs.Labels.Format
import BlobCache.Proofs.ObjectDir.Slot

/-!
# Stores in step with their disk

A store remembers which slots hold a file; it is in step with its disk when this is so
(`ObjectStore.InStep`). Nobody else being at the directory, it stays in step.

* `InStep.save_cases`: storing an object either fails and changes nothing, or puts a new file under
  the name of a slot that was free, from which the object is read back. Other objects stay.
* `InStep.remove`: deleting an object takes its file away and nothing else.
* Reading changes nothing, and what is read under a name is decided by the node of that name alone
  (`InStep.object_eq_ok_iff`).
-/

namespace BlobCache

theorem Slot.isPlain_name (n : Nat) : Path.IsPlain (Slot.name n) where
  ne_nil := by
    rw [Slot.toList_name]
    exact Nat.toDigits_ne_nil
  no_slash h := absurd (Slot.isDigit_of_mem_name h) (by decide)
  ne_dot h := by
    have hdot : '.' ∈ (Slot.name n).toList := by rw [h]; decide
    exact absurd (Slot.isDigit_of_mem_name hdot) (by decide)
  ne_dots h := by
    have hdot : '.' ∈ (Slot.name n).toList := by rw [h]; decide
    exact absurd (Slot.isDigit_of_mem_name hdot) (by decide)

theorem Slot.isPlain_temporaryName (n : Nat) : Path.IsPlain (Slot.temporaryName n) := by
  have hlist : (Slot.temporaryName n).toList = (Slot.name n).toList ++ ['.', 't', 'm', 'p'] := by
    rw [Slot.temporaryName, String.toList_append]
    rfl
  -- none of the names that are not plain has a letter
  have ht : 't' ∈ (Slot.temporaryName n).toList := by
    rw [hlist]
    exact List.mem_append_right _ (by decide)
  refine ⟨fun h => ?_, fun h => ?_, fun h => ?_, fun h => ?_⟩
  · rw [h] at ht
    exact absurd ht List.not_mem_nil
  · rw [hlist] at h
    rcases List.mem_append.mp h with h | h
    · exact absurd (Slot.isDigit_of_mem_name h) (by decide)
    · exact absurd h (by decide)
  · rw [h] at ht
    exact absurd ht (by decide)
  · rw [h] at ht
    exact absurd ht (by decide)

/-- Different slots have different places in a folder. -/
theorem Slot.append_name_inj {folder : Location} {m n : Nat} :
    folder ++ [Slot.name m] = folder ++ [Slot.name n] ↔ m = n :=
  ⟨fun h => Slot.name_injective (List.singleton_inj.mp (List.append_cancel_left h)),
    fun h => h ▸ rfl⟩

/-- A temporary file has its place beside the slots. -/
theorem Slot.append_name_ne_temporaryName (folder : Location) (m n : Nat) :
    folder ++ [Slot.name m] ≠ folder ++ [Slot.temporaryName n] := fun h =>
  Slot.temporaryName_ne_name n m (List.singleton_inj.mp (List.append_cancel_left h)).symm

/-- The free slot is the first that the directory has and does not list. -/
theorem ObjectDir.freeSlot?_eq_some_iff {dir : ObjectDir} {n : Nat} :
    dir.freeSlot? = some n ↔ n < dir.limit ∧ n ∉ dir.slots ∧ ∀ k < n, k ∈ dir.slots := by
  rw [← SlotSet.firstGap_eq_iff, freeSlot?]
  by_cases hlt : dir.slots.firstGap < dir.limit
  · rw [if_pos hlt, Option.some.injEq]
    exact ⟨fun heq => ⟨heq ▸ hlt, heq⟩, fun h => h.2⟩
  · rw [if_neg hlt]
    exact ⟨nofun, fun h => absurd (h.2 ▸ h.1) hlt⟩

/-- The free slot is one that the directory has and does not list. -/
theorem ObjectDir.of_freeSlot? {dir : ObjectDir} {n : Nat} (h : dir.freeSlot? = some n) :
    n ∉ dir.slots ∧ n < dir.limit := by
  obtain ⟨hlt, hnot, -⟩ := freeSlot?_eq_some_iff.mp h
  exact ⟨hnot, hlt⟩

namespace ObjectStore

/-- Asking for an object changes nothing in the directory. -/
theorem load_apply (name : String) (s : ObjectStore) :
    (Backend.load name : Action ObjectStore StoredObject) s = ⟨s.object name, s, []⟩ :=
  Action.ofExcept_apply (s.object name) s

/-- Asking for a body changes nothing in the directory. -/
theorem loadBody_apply (name : String) (s : ObjectStore) :
    (Backend.loadBody name : Action ObjectStore Bytes) s = ⟨s.body name, s, []⟩ :=
  Action.ofExcept_apply (s.body name) s

/-- A store whose directory is a folder of the disk, and that knows which slots hold a file. -/
structure InStep (s : ObjectStore) (folder : Location) : Prop where
  find_path : s.disk.find s.dir.path = .ok folder
  hasFolder : s.disk.HasFolder folder
  mem_slots_iff : ∀ n, n ∈ s.dir.slots ↔
    n < Slot.bound ∧ s.disk.node? (folder ++ [Slot.name n]) ≠ none
  limit_le : s.dir.limit ≤ Slot.bound

/-- A store whose directory is a folder of the disk, and that takes no slot for free in which there
is something. -/
structure Records (s : ObjectStore) (folder : Location) : Prop where
  find_path : s.disk.find s.dir.path = .ok folder
  hasFolder : s.disk.HasFolder folder
  mem_slots : ∀ n, n < Slot.bound → s.disk.node? (folder ++ [Slot.name n]) ≠ none → n ∈ s.dir.slots
  limit_le : s.dir.limit ≤ Slot.bound

/-- The store with one more slot taken, on another disk. -/
def filled (s : ObjectStore) (n : Nat) (disk : Disk) : ObjectStore :=
  { dir := { s.dir with slots := s.dir.slots.insert n }, disk }

@[simp]
theorem filled_disk (s : ObjectStore) (n : Nat) (disk : Disk) : (s.filled n disk).disk = disk := rfl

/-- The store with a slot crossed off its record. -/
def crossedOff (s : ObjectStore) (n : Nat) : ObjectStore :=
  { s with dir := { s.dir with slots := s.dir.slots.erase n } }

/-! ### What storing and deleting come to

Neither operation is opened again behind these lemmas: the first four have a case each for the ways
in which storing an object ends, and the other three for those of deleting one, on any device. -/

section Device

variable {responses : List Response} {tidying response : Response} {labels : Labels}
  {header data : Bytes} {name : String} {n : Nat} {s : ObjectStore} {disk : Disk} {cause : IoError}

/-- Labels without a header are refused before anything is asked of the disk. -/
theorem saveTidying_of_header_error {e : HeaderError} (h : labels.header = .error e)
    (s : ObjectStore) :
    saveTidying responses tidying labels data s = Action.fail (.invalidArgument e.message) s := by
  rw [saveTidying, h]

/-- So is an object for which there is no free slot. -/
theorem saveTidying_of_full (h : labels.header = .ok header) (hfull : s.dir.freeSlot? = none) :
    saveTidying responses tidying labels data s = Action.fail (.writeFailed
      s!"storage directory {s.dir.path.text} full ({s.dir.limit} files)" none) s := by
  rw [saveTidying, h]
  dsimp only
  rw [Action.bind_apply, Action.get_apply]
  dsimp only
  rw [hfull]
  rfl

/-- An object is stored when its file was put in place. -/
theorem saveTidying_of_placed (h : labels.header = .ok header) (hfree : s.dir.freeSlot? = some n)
    (hperform : s.disk.perform (s.dir.placement n header data) responses = (disk, .ok ())) :
    (saveTidying responses tidying labels data s).result = .ok (Slot.name n) ∧
      (saveTidying responses tidying labels data s).state = s.filled n disk := by
  rw [saveTidying, h]
  dsimp only
  rw [Action.bind_apply, Action.get_apply]
  dsimp only
  rw [hfree]
  dsimp only
  rw [hperform]
  exact ⟨rfl, rfl⟩

/-- When the file could not be put in place, the temporary file is taken away if the device lets it
be. -/
theorem saveTidying_of_not_placed (h : labels.header = .ok header)
    (hfree : s.dir.freeSlot? = some n)
    (hperform : s.disk.perform (s.dir.placement n header data) responses = (disk, .error cause)) :
    (saveTidying responses tidying labels data s).result =
        .error (.writeFailed ("writing " ++ (s.dir.slotPath n).text) (some cause)) ∧
      (saveTidying responses tidying labels data s).state = { s with
        disk := (disk.removeFileOn (s.dir.temporaryPath n) tidying).toOption.getD disk } := by
  rw [saveTidying, h]
  dsimp only
  rw [Action.bind_apply, Action.get_apply]
  dsimp only
  rw [hfree]
  dsimp only
  rw [hperform]
  exact ⟨rfl, rfl⟩

/-- A name of another form is no object's. -/
theorem removeOn_of_ofName?_eq_none (h : Slot.ofName? name = none) (s : ObjectStore) :
    removeOn response name s =
      Action.fail (.malformedObject name "not an object filename") s := by
  rw [removeOn, h]

/-- An object is deleted, and its slot is free, when its file was taken away. -/
theorem removeOn_of_removed (h : Slot.ofName? name = some n)
    (hremoved : s.disk.removeFileOn (s.dir.slotPath n) response = .ok disk) :
    (removeOn response name s).result = .ok () ∧
      (removeOn response name s).state = { s.crossedOff n with disk } := by
  rw [removeOn, h]
  dsimp only
  rw [Action.bind_apply, Action.get_apply]
  dsimp only
  rw [hremoved]
  exact ⟨rfl, rfl⟩

/-- The slot is crossed off as well when its file could not be taken away, which is a failure unless
the file was gone. -/
theorem removeOn_of_not_removed (h : Slot.ofName? name = some n)
    (hremoved : s.disk.removeFileOn (s.dir.slotPath n) response = .error cause) :
    (removeOn response name s).result =
        (if cause = .notFound then .ok ()
          else .error (.io ("removing " ++ (s.dir.slotPath n).text) cause)) ∧
      (removeOn response name s).state = s.crossedOff n := by
  rw [removeOn, h]
  dsimp only
  rw [Action.bind_apply, Action.get_apply]
  dsimp only
  rw [hremoved]
  cases cause <;> exact ⟨rfl, rfl⟩

end Device

/-! ### Stores in step -/

/-- `disk` is what storing an object in slot `n` makes of the disk of a store. -/
structure Stored (s : ObjectStore) (folder : Location) (n : Nat) (labels : Labels) (data : Bytes)
    (disk : Disk) : Prop where
  freeSlot : s.dir.freeSlot? = some n
  keepsFolders : s.disk.KeepsFolders disk
  /-- The slot has a file with the labels and the body. -/
  file : ∃ header, disk.node? (folder ++ [Slot.name n]) = some (.file (header ++ 0 :: data)) ∧
    (∀ b ∈ header, b ≠ 0) ∧ Labels.ofHeader header = .ok labels
  /-- No temporary file is left. -/
  temporary : disk.node? (folder ++ [Slot.temporaryName n]) = none
  /-- Nothing else changed. -/
  others : ∀ l, l ≠ folder ++ [Slot.name n] → l ≠ folder ++ [Slot.temporaryName n] →
    disk.node? l = s.disk.node? l

/-- The store without the object in a slot. -/
def vacated (s : ObjectStore) (folder : Location) (n : Nat) : ObjectStore :=
  { dir := { s.dir with slots := s.dir.slots.erase n }
    disk := s.disk.erase (folder ++ [Slot.name n]) }

theorem node?_vacated (s : ObjectStore) (folder : Location) (n : Nat) (l : Location) :
    (s.vacated folder n).disk.node? l =
      if l = folder ++ [Slot.name n] then none else s.disk.node? l :=
  Disk.node?_erase s.disk (folder ++ [Slot.name n]) l

/-- A free slot is no file's. -/
theorem Records.freeSlot {s : ObjectStore} {folder : Location} (h : s.Records folder) {n : Nat}
    (hn : s.dir.freeSlot? = some n) :
    n ∉ s.dir.slots ∧ n < Slot.bound ∧ s.disk.node? (folder ++ [Slot.name n]) = none := by
  obtain ⟨hnot, hlt⟩ := ObjectDir.of_freeSlot? hn
  have hbound := Nat.lt_of_lt_of_le hlt h.limit_le
  exact ⟨hnot, hbound, Decidable.not_not.mp fun hnode => hnot (h.mem_slots _ hbound hnode)⟩

namespace InStep

variable {s s' : ObjectStore} {folder : Location} {filename : String}

theorem records (h : s.InStep folder) : s.Records folder :=
  ⟨h.find_path, h.hasFolder, fun n hlt hnode => (h.mem_slots_iff n).mpr ⟨hlt, hnode⟩, h.limit_le⟩

theorem find_slotPath (h : s.InStep folder) (n : Nat) :
    s.disk.find (s.dir.slotPath n) = .ok (folder ++ [Slot.name n]) :=
  Disk.find_join h.find_path h.hasFolder (Slot.isPlain_name n)

theorem find_temporaryPath (h : s.InStep folder) (n : Nat) :
    s.disk.find (s.dir.temporaryPath n) = .ok (folder ++ [Slot.temporaryName n]) :=
  Disk.find_join h.find_path h.hasFolder (Slot.isPlain_temporaryName n)

/-! ### Reading -/

/-- What can be read is the file of a slot, cut at its first zero byte. -/
theorem read_eq_ok_iff (h : s.InStep folder) {parts : Bytes × Bytes} :
    s.read filename = .ok parts ↔
      ∃ n file, filename = Slot.name n ∧ n < Slot.bound ∧
        s.disk.node? (folder ++ [filename]) = some (.file file) ∧
        file.cutAtZero? = some parts := by
  rw [read]
  constructor
  · intro hr
    cases hs : Slot.ofName? filename with
    | none => simp [hs] at hr
    | some n =>
      obtain ⟨rfl, hlt⟩ := Slot.ofName?_eq_some_iff.mp hs
      rw [hs] at hr
      dsimp only at hr
      cases hn : s.disk.node? (folder ++ [Slot.name n]) with
      | none =>
        rw [Disk.stat_of_find_none (h.find_slotPath n) hn] at hr
        cases hr
      | some node =>
        rw [Disk.stat_of_find (h.find_slotPath n) hn] at hr
        cases node with
        | folder mode => cases hr
        | file file =>
          dsimp only at hr
          cases hc : file.cutAtZero? with
          | none => simp [hc] at hr
          | some cut =>
            simp only [hc] at hr
            exact ⟨n, file, rfl, hlt, rfl, hc.trans (congrArg some (Except.ok.inj hr))⟩
  · rintro ⟨n, file, rfl, hlt, hn, hc⟩
    rw [Slot.ofName?_eq_some_iff.mpr ⟨rfl, hlt⟩]
    dsimp only
    rw [Disk.stat_of_find (h.find_slotPath n) hn]
    simp only [hc]

/-- An object is what the file of a slot holds, if its labels can be read. -/
theorem object_eq_ok_iff (h : s.InStep folder) {o : StoredObject} :
    s.object filename = .ok o ↔
      ∃ n file header, filename = Slot.name n ∧ n < Slot.bound ∧
        s.disk.node? (folder ++ [filename]) = some (.file file) ∧
        file.cutAtZero? = some (header, o.body) ∧ Labels.ofHeader header = .ok o.labels := by
  rw [object, bind_eq_ok_iff]
  constructor
  · rintro ⟨⟨header, body⟩, hr, ho⟩
    obtain ⟨n, file, hf, hlt, hn, hc⟩ := h.read_eq_ok_iff.mp hr
    cases hl : Labels.ofHeader header with
    | error fault => simp [hl] at ho
    | ok labels =>
      simp only [hl] at ho
      cases ho
      exact ⟨n, file, header, hf, hlt, hn, hc, hl⟩
  · rintro ⟨n, file, header, hf, hlt, hn, hc, hl⟩
    refine ⟨(header, o.body), h.read_eq_ok_iff.mpr ⟨n, file, hf, hlt, hn, hc⟩, ?_⟩
    simp only [hl]

/-- The body of an object is had without its labels. -/
theorem body_of_object {o : StoredObject} (ho : s.object filename = .ok o) :
    s.body filename = .ok o.body := by
  obtain ⟨⟨header, body⟩, hr, hread⟩ := bind_eq_ok_iff.mp ho
  refine bind_eq_ok_iff.mpr ⟨(header, body), hr, ?_⟩
  cases hl : Labels.ofHeader header with
  | error fault => simp [hl] at hread
  | ok labels =>
    simp only [hl] at hread
    cases hread
    rfl

/-- The file of an object, in a slot, is the object. -/
theorem object_of_file (h : s.InStep folder) {labels : Labels} {header data : Bytes} {n : Nat}
    (hheader : labels.header = .ok header) (hlt : n < Slot.bound)
    (hfile : s.disk.node? (folder ++ [Slot.name n]) = some (.file (header ++ data))) :
    s.object (Slot.name n) = .ok ⟨labels, data⟩ :=
  h.object_eq_ok_iff.mpr ⟨n, header ++ data, header.dropLast, rfl, hlt, hfile,
    Labels.cutAtZero?_header hheader data, Labels.ofHeader_dropLast hheader⟩

/-- What is no name of a slot, or of one in which there is nothing, is not read. -/
theorem read_eq_error (h : s.InStep folder)
    (hnone : ∀ n, filename = Slot.name n → s.disk.node? (folder ++ [Slot.name n]) = none) :
    ∃ e, s.read filename = .error e := by
  cases hread : s.read filename with
  | error e => exact ⟨e, rfl⟩
  | ok parts =>
    obtain ⟨n, file, rfl, -, hnode, -⟩ := h.read_eq_ok_iff.mp hread
    rw [hnone n rfl] at hnode
    cases hnode

theorem object_eq_error (h : s.InStep folder)
    (hnone : ∀ n, filename = Slot.name n → s.disk.node? (folder ++ [Slot.name n]) = none) :
    ∃ e, s.object filename = .error e := by
  obtain ⟨e, he⟩ := h.read_eq_error hnone
  refine ⟨e, ?_⟩
  rw [object, he]
  rfl

theorem body_eq_error (h : s.InStep folder)
    (hnone : ∀ n, filename = Slot.name n → s.disk.node? (folder ++ [Slot.name n]) = none) :
    ∃ e, s.body filename = .error e := by
  obtain ⟨e, he⟩ := h.read_eq_error hnone
  refine ⟨e, ?_⟩
  rw [body, he]
  rfl

/-- An object stays as long as the node under its name does. -/
theorem object_of_node (h : s.InStep folder) (h' : s'.InStep folder) {o : StoredObject}
    (ho : s.object filename = .ok o)
    (hnode : s'.disk.node? (folder ++ [filename]) = s.disk.node? (folder ++ [filename])) :
    s'.object filename = .ok o := by
  obtain ⟨n, file, header, hf, hlt, hn, hc, hl⟩ := h.object_eq_ok_iff.mp ho
  exact h'.object_eq_ok_iff.mpr ⟨n, file, header, hf, hlt, hnode.trans hn, hc, hl⟩

/-- The name of an object that is there is one of the directory's. -/
theorem mem_filenames_of_object (h : s.InStep folder) {o : StoredObject}
    (ho : s.object filename = .ok o) : filename ∈ s.dir.filenames := by
  obtain ⟨n, file, -, rfl, hlt, hnode, -, -⟩ := h.object_eq_ok_iff.mp ho
  refine List.mem_map.mpr ⟨n, (h.mem_slots_iff n).mpr ⟨hlt, ?_⟩, rfl⟩
  rw [hnode]
  exact Option.some_ne_none _

/-! ### Storing -/

/-- A free slot is no file's. -/
theorem freeSlot (h : s.InStep folder) {n : Nat} (hn : s.dir.freeSlot? = some n) :
    n ∉ s.dir.slots ∧ n < Slot.bound ∧ s.disk.node? (folder ++ [Slot.name n]) = none :=
  h.records.freeSlot hn

/-- Labels without a header are refused. -/
theorem save_of_header_error {labels : Labels} {e : HeaderError} (h : labels.header = .error e)
    (data : Bytes) (s : ObjectStore) :
    (save labels data s).result = .error (.invalidArgument e.message) ∧
      (save labels data s).state = s := by
  rw [save, saveOn, saveTidying_of_header_error h]
  exact ⟨rfl, rfl⟩

/-- Without a free slot there is no room, and this is not the disk's doing. -/
theorem save_of_full {labels : Labels} {bytes : Bytes} (h : labels.header = .ok bytes)
    (data : Bytes) (hfull : s.dir.freeSlot? = none) :
    (∃ reason, (save labels data s).result = .error (.writeFailed reason none)) ∧
      (save labels data s).state = s := by
  rw [save, saveOn, saveTidying_of_full h hfull]
  exact ⟨⟨_, rfl⟩, rfl⟩

/-- A folder under the temporary name is the one thing that can be in the way of an object. -/
theorem save_of_hasFolder (h : s.InStep folder) {labels : Labels} {bytes : Bytes}
    (hheader : labels.header = .ok bytes) (data : Bytes) {n : Nat}
    (hfree : s.dir.freeSlot? = some n)
    (hfolder : s.disk.HasFolder (folder ++ [Slot.temporaryName n])) :
    (∃ error, (save labels data s).result = .error error) ∧ (save labels data s).state = s := by
  have htmp := h.find_temporaryPath n
  have hrefused : (FileOperation.create (s.dir.temporaryPath n)).apply s.disk =
      .error .isDirectory := Disk.createFile_of_hasFolder htmp hfolder
  have hperform : s.disk.perform (s.dir.placement n bytes data) [] =
      (s.disk, .error .isDirectory) := by
    rw [ObjectDir.placement, Disk.perform_cons_of_error hrefused]
  have hkept : s.disk.removeFileOn (s.dir.temporaryPath n) .comply = .error .isDirectory :=
    Disk.removeFile_of_hasFolder htmp hfolder
  obtain ⟨hr, hs⟩ := saveTidying_of_not_placed hheader hfree hperform
  rw [save, saveOn, hr, hs, hkept]
  exact ⟨⟨_, rfl⟩, rfl⟩

/-- With a free slot and nothing in the way, an object is stored. -/
theorem save_of_freeSlot (h : s.InStep folder) {labels : Labels} {bytes : Bytes}
    (hheader : labels.header = .ok bytes) (data : Bytes) {n : Nat}
    (hfree : s.dir.freeSlot? = some n)
    (hfolder : ¬s.disk.HasFolder (folder ++ [Slot.temporaryName n])) :
    ∃ disk, (save labels data s).result = .ok (Slot.name n) ∧
      (save labels data s).state = s.filled n disk ∧ s.Stored folder n labels data disk ∧
      disk.node? (folder ++ [Slot.name n]) = some (.file (bytes ++ data)) := by
  obtain ⟨-, -, hnone⟩ := h.freeSlot hfree
  obtain ⟨text, htext, hzero, hlabels⟩ := Labels.exists_of_header hheader
  obtain ⟨disk, hperform, hkeeps, hnodes⟩ := Disk.perform_placement (h.find_temporaryPath n)
    (h.find_slotPath n) hfolder (Disk.not_hasFolder_of_none hnone)
    (Slot.append_name_ne_temporaryName folder n n) bytes data
  have hfile : disk.node? (folder ++ [Slot.name n]) = some (.file (bytes ++ data)) := by
    rw [hnodes, if_pos rfl]
  obtain ⟨hr, hs⟩ := saveTidying_of_placed hheader hfree hperform
  refine ⟨disk, hr, hs, ⟨hfree, hkeeps, ⟨text, ?_, hzero, hlabels⟩, ?_, ?_⟩, hfile⟩
  · rw [hfile, htext, List.append_assoc]
    rfl
  · have hne := (Slot.append_name_ne_temporaryName folder n n).symm
    rw [hnodes, if_neg hne, if_pos rfl]
  · intro l hl hl'
    rw [hnodes, if_neg hl, if_neg hl']

/-- Storing an object fails and changes nothing, or puts its file into a free slot. It can fail
before it asks anything of the disk, or because a folder is in the place of the temporary file. -/
theorem save_cases (h : s.InStep folder) (labels : Labels) (data : Bytes) :
    (∃ error, (save labels data s).result = .error error ∧ (save labels data s).state = s) ∨
      ∃ n disk, (save labels data s).result = .ok (Slot.name n) ∧
        (save labels data s).state = s.filled n disk ∧
        s.Stored folder n labels data disk := by
  cases hheader : labels.header with
  | error e => exact .inl ⟨_, save_of_header_error hheader data s⟩
  | ok bytes =>
    cases hfree : s.dir.freeSlot? with
    | none =>
      obtain ⟨⟨reason, hr⟩, hs⟩ := save_of_full hheader data hfree
      exact .inl ⟨_, hr, hs⟩
    | some n =>
      by_cases hfolder : s.disk.HasFolder (folder ++ [Slot.temporaryName n])
      · obtain ⟨⟨error, hr⟩, hs⟩ := h.save_of_hasFolder hheader data hfree hfolder
        exact .inl ⟨error, hr, hs⟩
      · obtain ⟨disk, hr, hs, hstored, -⟩ := h.save_of_freeSlot hheader data hfree hfolder
        exact .inr ⟨n, disk, hr, hs, hstored⟩

/-- After an object was stored, the store is in step. -/
theorem filled (h : s.InStep folder) {n : Nat} {labels : Labels} {data : Bytes} {disk : Disk}
    (hstored : s.Stored folder n labels data disk) : (s.filled n disk).InStep folder where
  find_path := hstored.keepsFolders.find h.find_path
  hasFolder := hstored.keepsFolders.hasFolder h.hasFolder
  mem_slots_iff m := by
    -- of all the slots, only the one that was free has another node now
    obtain ⟨-, hlt, -⟩ := h.freeSlot hstored.freeSlot
    change m ∈ s.dir.slots.insert n ↔ m < Slot.bound ∧ disk.node? (folder ++ [Slot.name m]) ≠ none
    rw [SlotSet.mem_insert, h.mem_slots_iff]
    by_cases hm : m = n
    · obtain ⟨header, hfile, -⟩ := hstored.file
      rw [hm, hfile]
      exact ⟨fun _ => ⟨hlt, Option.some_ne_none _⟩, fun _ => .inl rfl⟩
    · rw [or_iff_right hm, hstored.others _ (mt Slot.append_name_inj.mp hm)
        (Slot.append_name_ne_temporaryName folder m n)]
  limit_le := h.limit_le

/-- An object that was stored is there. -/
theorem object_filled (h : s.InStep folder) {n : Nat} {labels : Labels} {data : Bytes} {disk : Disk}
    (hstored : s.Stored folder n labels data disk) :
    (s.filled n disk).object (Slot.name n) = .ok ⟨labels, data⟩ := by
  obtain ⟨-, hlt, -⟩ := h.freeSlot hstored.freeSlot
  obtain ⟨header, hfile, hzero, hlabels⟩ := hstored.file
  exact (h.filled hstored).object_eq_ok_iff.mpr ⟨n, header ++ 0 :: data, header, rfl, hlt, hfile,
    Bytes.cutAtZero?_append hzero data, hlabels⟩

/-! ### Deleting -/

/-- Deleting an object takes its file away, frees its slot, and does nothing else. -/
theorem remove_apply (h : s.InStep folder) {n : Nat} (hlt : n < Slot.bound) {file : Bytes}
    (hn : s.disk.node? (folder ++ [Slot.name n]) = some (.file file)) :
    (remove (Slot.name n) s).result = .ok () ∧
      (remove (Slot.name n) s).state = s.vacated folder n := by
  have hname : Slot.ofName? (Slot.name n) = some n := Slot.ofName?_eq_some_iff.mpr ⟨rfl, hlt⟩
  exact removeOn_of_removed hname (Disk.removeFile_of_find (h.find_slotPath n) hn)

/-- A slot in which there is nothing is free already. -/
theorem remove_of_none (h : s.InStep folder) {n : Nat} (hlt : n < Slot.bound)
    (hn : s.disk.node? (folder ++ [Slot.name n]) = none) :
    (remove (Slot.name n) s).result = .ok () ∧ (remove (Slot.name n) s).state = s := by
  have hname : Slot.ofName? (Slot.name n) = some n := Slot.ofName?_eq_some_iff.mpr ⟨rfl, hlt⟩
  have hslots : s.dir.slots.erase n = s.dir.slots := SlotSet.ext_of_mem fun m => by
    have hnot : n ∉ s.dir.slots := fun hmem => ((h.mem_slots_iff n).mp hmem).2 hn
    rw [SlotSet.mem_erase]
    exact and_iff_left_of_imp fun hmem heq => hnot (heq ▸ hmem)
  have hcrossed : s.crossedOff n = s := by rw [crossedOff, hslots]
  have hgone : s.disk.removeFileOn (s.dir.slotPath n) .comply = .error .notFound :=
    Disk.removeFile_of_find_none (h.find_slotPath n) hn
  obtain ⟨hr, hs⟩ := removeOn_of_not_removed hname hgone
  exact ⟨hr, hs.trans hcrossed⟩

/-- After an object was deleted, the store is in step. -/
theorem vacated (h : s.InStep folder) {n : Nat} {file : Bytes}
    (hn : s.disk.node? (folder ++ [Slot.name n]) = some (.file file)) :
    (s.vacated folder n).InStep folder where
  find_path := (Disk.KeepsFolders.erase (Disk.not_hasFolder_of_file hn)).find h.find_path
  hasFolder := (Disk.KeepsFolders.erase (Disk.not_hasFolder_of_file hn)).hasFolder h.hasFolder
  mem_slots_iff m := by
    change m ∈ s.dir.slots.erase n ↔ m < Slot.bound ∧
      (s.vacated folder n).disk.node? (folder ++ [Slot.name m]) ≠ none
    rw [SlotSet.mem_erase, node?_vacated, h.mem_slots_iff]
    by_cases hm : m = n
    · simp [hm]
    · rw [if_neg (mt Slot.append_name_inj.mp hm), and_iff_left hm]
  limit_le := h.limit_le

end InStep

end ObjectStore

end BlobCache
