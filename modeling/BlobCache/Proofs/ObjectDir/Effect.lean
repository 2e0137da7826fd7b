import BlobCache.Proofs.Disk.Interruption
import BlobCache.Proofs.ObjectDir.Access
import BlobCache.Proofs.ObjectDir.Opening

/-!
# What calls do in a folder

A store need not be alone with its folder, and what it remembers of the slots may then be out of
date. `ObjectStore.LiesIn.runOn` says what a call can do all the same, on any device: it does
nothing in the slots, or fills the slot that the store takes for the lowest free one, in place of a
file that may be there, or vacates one, or reads the folder again. A save that fails has changed no
slot, whatever it met with.

The two calls that change the disk are treated first, each with the cases that the device leaves
open (`LiesIn.saveOn_cases`, `LiesIn.remove_cases`); `ObjectStore.Acts` collects what is the same
for all calls, and `ObjectStore.Effect` what is not.
-/

namespace BlobCache

/-- A call that stored, deleted and read again nothing: it asked for something, or it failed. -/
def StoreCall.IsIdle (answer : Except CacheError StoreAnswer) : StoreCall → Prop
  | save _ _ | remove _ | rescan => ∃ e, answer = .error e
  | load _ | loadBody _ | list | count | usage => True

namespace ObjectStore

/-- A store whose directory is a folder of the disk. -/
structure LiesIn (s : ObjectStore) (folder : Location) : Prop where
  find_path : s.disk.find s.dir.path = .ok folder
  hasFolder : s.disk.HasFolder folder
  limit_le : s.dir.limit ≤ Slot.bound

/-- What a call can do to a store and in the slots of its folder. -/
inductive Effect (s : ObjectStore) (folder : Location) (call : StoreCall)
    (answer : Except CacheError StoreAnswer) (s' : ObjectStore) : Prop
  /-- Nothing. The store may have noticed that a slot has no file. -/
  | none (hcall : call.IsIdle answer)
      (hslots : ∀ n file, s.disk.node? (folder ++ [Slot.name n]) = some (.file file) →
        n ∈ s.dir.slots → n ∈ s'.dir.slots)
      (hnodes : ∀ n, s'.disk.node? (folder ++ [Slot.name n]) =
        s.disk.node? (folder ++ [Slot.name n]))
  /-- A slot that the store takes for free is filled. There may be a file, but no folder. -/
  | filled {labels : Labels} {header data : Bytes} {n : Nat} (hcall : call = .save labels data)
      (hheader : labels.header = .ok header) (hfree : s.dir.freeSlot? = some n)
      (hanswer : answer = .ok (.name (Slot.name n))) (hslots : s'.dir.slots = s.dir.slots.insert n)
      (hfolder : ¬s.disk.HasFolder (folder ++ [Slot.name n]))
      (hfile : s'.disk.node? (folder ++ [Slot.name n]) = some (.file (header ++ data)))
      (hothers : ∀ m, m ≠ n → s'.disk.node? (folder ++ [Slot.name m]) =
        s.disk.node? (folder ++ [Slot.name m]))
  /-- A slot is vacated. -/
  | vacated {n : Nat} (hcall : call = .remove (Slot.name n)) (hanswer : answer = .ok .done)
      (hslots : s'.dir.slots = s.dir.slots.erase n)
      (hnone : s'.disk.node? (folder ++ [Slot.name n]) = .none)
      (hothers : ∀ m, m ≠ n → s'.disk.node? (folder ++ [Slot.name m]) =
        s.disk.node? (folder ++ [Slot.name m]))
  /-- The folder is read again. -/
  | reread (hcall : call = .rescan) (hanswer : answer = .ok .done) (hdisk : s'.disk = s.disk)
      (hslots : ∀ n < Slot.bound, s.disk.node? (folder ++ [Slot.name n]) ≠ .none →
        n ∈ s'.dir.slots)

/-- What a call can do at all: the folders stay, the directory with them, and in the slots it has
an effect. -/
structure Acts (s : ObjectStore) (folder : Location) (call : StoreCall)
    (answer : Except CacheError StoreAnswer) (s' : ObjectStore) : Prop where
  liesIn : s'.LiesIn folder
  path_eq : s'.dir.path = s.dir.path
  keepsFolders : s.disk.KeepsFolders s'.disk
  effect : s.Effect folder call answer s'

variable {s : ObjectStore} {folder : Location}

theorem InStep.liesIn (h : s.InStep folder) : s.LiesIn folder :=
  ⟨h.find_path, h.hasFolder, h.limit_le⟩

namespace LiesIn

theorem find_slotPath (h : s.LiesIn folder) (n : Nat) :
    s.disk.find (s.dir.slotPath n) = .ok (folder ++ [Slot.name n]) :=
  Disk.find_join h.find_path h.hasFolder (Slot.isPlain_name n)

theorem find_temporaryPath (h : s.LiesIn folder) (n : Nat) :
    s.disk.find (s.dir.temporaryPath n) = .ok (folder ++ [Slot.temporaryName n]) :=
  Disk.find_join h.find_path h.hasFolder (Slot.isPlain_temporaryName n)

/-- The file of an object is read, whatever the store knows of the slot. -/
theorem object_of_file (h : s.LiesIn folder) {labels : Labels} {header data : Bytes} {n : Nat}
    (hheader : labels.header = .ok header) (hlt : n < Slot.bound)
    (hfile : s.disk.node? (folder ++ [Slot.name n]) = some (.file (header ++ data))) :
    s.object (Slot.name n) = .ok ⟨labels, data⟩ := by
  -- a store that has read the folder again reads the same
  obtain ⟨slots, -, -, hin⟩ := rescan_of_find h.find_path h.hasFolder h.limit_le
  exact hin.object_of_file hheader hlt hfile

/-- Another disk with the folders of the first has the folder of the directory. -/
theorem keepsFolders (h : s.LiesIn folder) {disk : Disk} (hkeeps : s.disk.KeepsFolders disk) :
    LiesIn { s with disk } folder :=
  ⟨hkeeps.find h.find_path, hkeeps.hasFolder h.hasFolder, h.limit_le⟩

/-- What storing an object does: it fails, or fills the free slot. -/
theorem saveOn_cases (h : s.LiesIn folder) (responses : List Response) (labels : Labels)
    (data : Bytes) :
    (∃ e disk, (saveOn responses labels data s).result = .error e ∧
        (saveOn responses labels data s).state = { s with disk } ∧ s.disk.KeepsFolders disk ∧
        ∀ n, disk.node? (folder ++ [Slot.name n]) = s.disk.node? (folder ++ [Slot.name n])) ∨
      ∃ header n disk, labels.header = .ok header ∧ s.dir.freeSlot? = some n ∧
        (saveOn responses labels data s).result = .ok (Slot.name n) ∧
        (saveOn responses labels data s).state = s.filled n disk ∧ s.disk.KeepsFolders disk ∧
        ¬s.disk.HasFolder (folder ++ [Slot.name n]) ∧
        disk.node? (folder ++ [Slot.name n]) = some (.file (header ++ data)) ∧
        ∀ m, m ≠ n →
          disk.node? (folder ++ [Slot.name m]) = s.disk.node? (folder ++ [Slot.name m]) := by
  have hrefl : s.disk.KeepsFolders s.disk := ⟨rfl, fun hf => hf⟩
  rw [saveOn]
  cases hheader : labels.header with
  | error e =>
    rw [saveTidying_of_header_error hheader]
    exact .inl ⟨_, s.disk, rfl, rfl, hrefl, fun _ => rfl⟩
  | ok header =>
    cases hfree : s.dir.freeSlot? with
    | none =>
      rw [saveTidying_of_full hheader hfree]
      exact .inl ⟨_, s.disk, rfl, rfl, hrefl, fun _ => rfl⟩
    | some n =>
      have htemporary := h.find_temporaryPath n
      have hbeside := fun m => Slot.append_name_ne_temporaryName folder m n
      obtain ⟨disk, e, hperform, halters⟩ | ⟨disk, hperform, hfolder, hkeeps, hnodes⟩ :=
        Disk.perform_placement_cases htemporary (h.find_slotPath n) (hbeside n) header data
          responses
      · obtain ⟨hr, hs⟩ := saveTidying_of_not_placed hheader hfree hperform
        -- the temporary file may have been taken away
        have htidied : s.disk.AltersOnly
            ((disk.removeFile (s.dir.temporaryPath n)).toOption.getD disk)
            (folder ++ [Slot.temporaryName n]) := by
          cases hremoved : disk.removeFile (s.dir.temporaryPath n) with
          | error e => exact halters
          | ok tidied =>
            exact halters.trans
              (Disk.altersOnly_removeFile (halters.keepsFolders.find htemporary) hremoved)
        exact .inl ⟨_, _, hr, hs, htidied.keepsFolders, fun m => htidied.node?_eq _ (hbeside m)⟩
      · obtain ⟨hr, hs⟩ := saveTidying_of_placed hheader hfree hperform
        refine .inr ⟨header, n, disk, rfl, rfl, hr, hs, hkeeps, hfolder, ?_, fun m hm => ?_⟩
        · rw [hnodes, if_pos rfl]
        · rw [hnodes, if_neg (mt Slot.append_name_inj.mp hm), if_neg (hbeside m)]

/-- What deleting an object does: it fails, or leaves the slot vacant. -/
theorem remove_cases (h : s.LiesIn folder) (name : String) :
    (∃ e slots, (remove name s).result = .error e ∧
        (remove name s).state = { s with dir := { s.dir with slots } } ∧
        ∀ n file, s.disk.node? (folder ++ [Slot.name n]) = some (.file file) →
          n ∈ s.dir.slots → n ∈ slots) ∨
      ∃ n disk, name = Slot.name n ∧ (remove name s).result = .ok () ∧
        (remove name s).state = { dir := { s.dir with slots := s.dir.slots.erase n }, disk } ∧
        s.disk.KeepsFolders disk ∧ disk.node? (folder ++ [Slot.name n]) = none ∧
        ∀ m, m ≠ n →
          disk.node? (folder ++ [Slot.name m]) = s.disk.node? (folder ++ [Slot.name m]) := by
  rw [remove]
  cases hname : Slot.ofName? name with
  | none =>
    rw [removeOn_of_ofName?_eq_none hname]
    exact .inl ⟨_, s.dir.slots, rfl, rfl, fun _ _ _ hn => hn⟩
  | some n =>
    obtain ⟨rfl, -⟩ := Slot.ofName?_eq_some_iff.mp hname
    have hslot := h.find_slotPath n
    cases hnode : s.disk.node? (folder ++ [Slot.name n]) with
    | none =>
      have hgone : s.disk.removeFileOn (s.dir.slotPath n) .comply = .error .notFound :=
        Disk.removeFile_of_find_none hslot hnode
      obtain ⟨hr, hs⟩ := removeOn_of_not_removed hname hgone
      exact .inr ⟨n, s.disk, rfl, hr, hs, ⟨rfl, fun hf => hf⟩, hnode, fun _ _ => rfl⟩
    | some node =>
      cases node with
      | file file =>
        have hremoved : s.disk.removeFileOn (s.dir.slotPath n) .comply =
            .ok (s.disk.erase (folder ++ [Slot.name n])) := Disk.removeFile_of_find hslot hnode
        obtain ⟨hr, hs⟩ := removeOn_of_removed hname hremoved
        refine .inr ⟨n, _, rfl, hr, hs, .erase (Disk.not_hasFolder_of_file hnode), ?_,
          fun m hm => ?_⟩
        · rw [Disk.node?_erase, if_pos rfl]
        · rw [Disk.node?_erase, if_neg (mt Slot.append_name_inj.mp hm)]
      | folder mode =>
        have hrefused : s.disk.removeFileOn (s.dir.slotPath n) .comply = .error .isDirectory :=
          Disk.removeFile_of_hasFolder hslot ⟨mode, hnode⟩
        obtain ⟨hr, hs⟩ := removeOn_of_not_removed hname hrefused
        refine .inl ⟨_, _, hr, hs, fun m file hfile hm => SlotSet.mem_erase.mpr ⟨hm, ?_⟩⟩
        -- the slot is not one with a file
        rintro rfl
        rw [hnode] at hfile
        cases hfile

/-- A call that leaves the store alone. -/
private theorem acts_same (h : s.LiesIn folder) {call : StoreCall}
    {answer : Except CacheError StoreAnswer} (hcall : call.IsIdle answer) :
    s.Acts folder call answer s where
  liesIn := h
  path_eq := rfl
  keepsFolders := ⟨rfl, fun hf => hf⟩
  effect := .none hcall (fun _ _ _ hn => hn) fun _ => rfl

/-- All that a call can do, on any device: a case analysis of the call, in which only a save, a
removal and a rescan have something to show. -/
theorem runOn (h : s.LiesIn folder) (responses : List Response) (call : StoreCall) :
    s.Acts folder call (call.runOn responses s).result (call.runOn responses s).state := by
  cases call with
  | save labels data =>
    rw [StoreCall.runOn, Action.map_apply]
    obtain ⟨e, disk, hr, hs, hkeeps, hnodes⟩ |
      ⟨header, n, disk, hheader, hfree, hr, hs, hkeeps, hfolder, hfile, hothers⟩ :=
        h.saveOn_cases responses labels data
    · rw [hr, hs]
      exact ⟨h.keepsFolders hkeeps, rfl, hkeeps, .none ⟨e, rfl⟩ (fun _ _ _ hn => hn) hnodes⟩
    · rw [hr, hs]
      have hlies : (s.filled n disk).LiesIn folder :=
        ⟨hkeeps.find h.find_path, hkeeps.hasFolder h.hasFolder, h.limit_le⟩
      exact ⟨hlies, rfl, hkeeps, .filled rfl hheader hfree rfl rfl hfolder hfile hothers⟩
  | remove name =>
    have hrun : (StoreCall.remove name).runOn responses = (StoreCall.remove name).run := rfl
    rw [hrun, StoreCall.run, Action.map_apply]
    obtain ⟨e, slots, hr, hs, hslots⟩ | ⟨n, disk, rfl, hr, hs, hkeeps, hnone, hothers⟩ :=
      h.remove_cases name
    · change s.Acts folder _ ((remove name s).result.map _) (remove name s).state
      rw [hr, hs]
      exact ⟨⟨h.find_path, h.hasFolder, h.limit_le⟩, rfl, ⟨rfl, fun hf => hf⟩,
        .none ⟨e, rfl⟩ hslots fun _ => rfl⟩
    · change s.Acts folder _ ((remove (Slot.name n) s).result.map _) (remove (Slot.name n) s).state
      rw [hr, hs]
      exact ⟨⟨hkeeps.find h.find_path, hkeeps.hasFolder h.hasFolder, h.limit_le⟩, rfl, hkeeps,
        .vacated rfl rfl rfl hnone hothers⟩
  | rescan =>
    have hrun : StoreCall.rescan.runOn responses = StoreCall.rescan.run := rfl
    obtain ⟨slots, hr, hs, hin⟩ := rescan_of_find h.find_path h.hasFolder h.limit_le
    rw [hrun, StoreCall.run, Action.map_apply, hr, hs]
    exact ⟨hin.liesIn, rfl, ⟨rfl, fun hf => hf⟩,
      .reread rfl rfl rfl fun n hlt hnode => (hin.mem_slots_iff n).mpr ⟨hlt, hnode⟩⟩
  | _ =>
    rw [StoreCall.state_runOn_of_asks]
    · exact h.acts_same trivial
    · trivial

end LiesIn

end ObjectStore

end BlobCache
