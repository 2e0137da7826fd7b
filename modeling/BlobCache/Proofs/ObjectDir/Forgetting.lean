import BlobCache.Proofs.ObjectDir.Coverage
import BlobCache.Proofs.ObjectDir.Effect

/-!
# Removals that fail

A store crosses a slot off its record before it asks the disk to delete the file, and the slot stays
crossed off when the disk refuses. `ObjectStore.forgets_of_removeOn_error` says what is left of a
store after a removal that failed: the disk is as before, and the slot is neither listed nor counted
any more, although there is still something in its place. It is free for the next object if all
slots below it are taken.

If a folder is in its place, no object can ever be put there. The store goes on choosing the slot,
so every save fails, whatever other slots are free, until a lower slot is vacated, or the folder
goes away, or the directory is read again (`Stuck.undergo`). `remove_forgets_folder` is a run in
which this happens.
-/

namespace BlobCache

/-! ### Sets without a slot -/

namespace SlotSet

/-- Without `n`, the first gap is at `n` or, if there is a smaller one, where it was. -/
theorem firstGap_erase (s : SlotSet) (n : Nat) : (s.erase n).firstGap = min n s.firstGap := by
  rw [firstGap_eq_iff]
  constructor
  · rw [mem_erase]
    rintro ⟨hmem, hne⟩
    rcases Nat.le_total n s.firstGap with hle | hle
    · exact hne (Nat.min_eq_left hle)
    · rw [Nat.min_eq_right hle] at hmem
      exact s.firstGap_not_mem hmem
  · intro k hk
    obtain ⟨hn, hgap⟩ := Nat.lt_min.mp hk
    exact mem_erase.mpr ⟨mem_of_lt_firstGap hgap, Nat.ne_of_lt hn⟩

/-- Taking out a number that is not there changes nothing. -/
theorem erase_eq_self_iff {s : SlotSet} {n : Nat} : s.erase n = s ↔ n ∉ s := by
  constructor
  · intro h hmem
    rw [← h] at hmem
    exact (mem_erase.mp hmem).2 rfl
  · intro hnot
    refine ext_of_mem fun k => ?_
    rw [mem_erase]
    refine ⟨fun h => h.1, fun hk => ⟨hk, ?_⟩⟩
    rintro rfl
    exact hnot hk

/-- Taking out a number makes the set smaller by one, if it was there. -/
theorem size_erase (s : SlotSet) (n : Nat) :
    (s.erase n).size + (if n ∈ s then 1 else 0) = s.size := by
  by_cases hmem : n ∈ s
  · have hnodup : s.toList.Nodup := s.ascending.imp Nat.ne_of_lt
    have hlength : (s.toList.filter (· != n)).length = s.toList.length - 1 := by
      rw [← hnodup.erase_eq_filter n, List.length_erase_of_mem hmem]
    have hpos : 0 < s.toList.length := List.length_pos_of_mem hmem
    rw [if_pos hmem, size, size, erase, hlength]
    omega
  · rw [if_neg hmem, erase_eq_self_iff.mpr hmem, Nat.add_zero]

end SlotSet

/-! ### Crossing off -/

namespace ObjectStore

section CrossedOff

variable (s : ObjectStore) (n : Nat)

/-- The name of the slot is not listed any more; all others are. -/
private theorem filenames_crossedOff :
    (s.crossedOff n).dir.filenames = s.dir.filenames.filter (· != Slot.name n) := by
  have hname : ∀ k, (k != n) = (Slot.name k != Slot.name n) := fun k =>
    Bool.eq_iff_iff.mpr (by simpa using not_congr ⟨fun hk => hk ▸ rfl, Slot.name_injective⟩)
  rw [ObjectDir.filenames, ObjectDir.filenames, crossedOff, SlotSet.erase, List.filter_map]
  exact congrArg (List.map Slot.name) (List.filter_congr fun k _ => hname k)

private theorem fileCount_crossedOff :
    (s.crossedOff n).dir.fileCount + (if n ∈ s.dir.slots then 1 else 0) = s.dir.fileCount :=
  s.dir.slots.size_erase n

theorem crossedOff_eq_self_iff : s.crossedOff n = s ↔ n ∉ s.dir.slots := by
  rw [← SlotSet.erase_eq_self_iff]
  constructor
  · intro h
    exact congrArg (fun s : ObjectStore => s.dir.slots) h
  · intro h
    rw [crossedOff, h]

/-- The slot comes first when all slots below it are taken. -/
private theorem freeSlot?_crossedOff_eq_some_iff :
    (s.crossedOff n).dir.freeSlot? = some n ↔ n < s.dir.limit ∧ ∀ k < n, k ∈ s.dir.slots := by
  rw [ObjectDir.freeSlot?_eq_some_iff]
  constructor
  · rintro ⟨hlt, -, hbelow⟩
    exact ⟨hlt, fun k hk => (SlotSet.mem_erase.mp (hbelow k hk)).1⟩
  · rintro ⟨hlt, hbelow⟩
    refine ⟨hlt, fun hmem => (SlotSet.mem_erase.mp hmem).2 rfl, fun k hk => ?_⟩
    exact SlotSet.mem_erase.mpr ⟨hbelow k hk, Nat.ne_of_lt hk⟩

variable {s n}

/-- If the slot does not come first, the one that came first still does. -/
private theorem freeSlot?_crossedOff_of_ne (hne : (s.crossedOff n).dir.freeSlot? ≠ some n) :
    (s.crossedOff n).dir.freeSlot? = s.dir.freeSlot? := by
  rw [ObjectDir.freeSlot?, crossedOff] at hne ⊢
  dsimp only at hne ⊢
  rw [SlotSet.firstGap_erase] at hne ⊢
  rw [ObjectDir.freeSlot?]
  rcases Nat.le_total s.dir.slots.firstGap n with hle | hle
  · rw [Nat.min_eq_right hle]
  · rw [Nat.min_eq_left hle] at hne ⊢
    have hfull : ¬n < s.dir.limit := fun hlt => hne (if_pos hlt)
    rw [if_neg hfull, if_neg (by omega)]

end CrossedOff

variable {s : ObjectStore} {path : Path} {folder : Location} {n : Nat}

/-- The directory stays where it is. -/
theorem LiesIn.crossedOff (h : s.LiesIn folder) (n : Nat) : (s.crossedOff n).LiesIn folder :=
  ⟨h.find_path, h.hasFolder, h.limit_le⟩

/-- A removal fails because of the name, or because the disk refuses, and then the slot is crossed
off. -/
private theorem removeOn_error_cases {response : Response} {name : String} {error : CacheError}
    (h : (removeOn response name s).result = .error error) :
    (Slot.ofName? name = none ∧ error = .malformedObject name "not an object filename" ∧
        (removeOn response name s).state = s) ∨
      ∃ n cause, Slot.ofName? name = some n ∧
        s.disk.removeFileOn (s.dir.slotPath n) response = .error cause ∧
        error = .io ("removing " ++ (s.dir.slotPath n).text) cause ∧
        (removeOn response name s).state = s.crossedOff n := by
  cases hname : Slot.ofName? name with
  | none =>
    rw [removeOn_of_ofName?_eq_none hname] at h ⊢
    exact .inl ⟨rfl, (Except.error.inj h).symm, rfl⟩
  | some n =>
    cases hremoved : s.disk.removeFileOn (s.dir.slotPath n) response with
    | ok disk =>
      rw [(removeOn_of_removed hname hremoved).1] at h
      cases h
    | error cause =>
      obtain ⟨hr, hs⟩ := removeOn_of_not_removed hname hremoved
      rw [hr] at h
      by_cases hgone : cause = .notFound
      · rw [if_pos hgone] at h
        cases h
      · rw [if_neg hgone] at h
        exact .inr ⟨n, cause, rfl, hremoved, (Except.error.inj h).symm, hs⟩

/-- A save that has a slot and fails says that the file of the slot could not be written. -/
private theorem saveOn_error_of_freeSlot? {responses : List Response} {labels : Labels}
    {header data : Bytes} {error : CacheError} (hheader : labels.header = .ok header)
    (hfree : s.dir.freeSlot? = some n)
    (herror : (saveOn responses labels data s).result = .error error) :
    ∃ cause, error = .writeFailed ("writing " ++ (s.dir.slotPath n).text) (some cause) := by
  rw [saveOn] at herror
  rcases hperform : s.disk.perform (s.dir.placement n header data) responses with ⟨disk, cause | _⟩
  · rw [(saveTidying_of_not_placed hheader hfree hperform).1] at herror
    exact ⟨cause, (Except.error.inj herror).symm⟩
  · rw [(saveTidying_of_placed hheader hfree hperform).1] at herror
    cases herror

/-! ### Stores that choose a slot with a folder -/

/-- A store whose next object is to go where a folder is. -/
structure Stuck (s : ObjectStore) (path : Path) (folder : Location) (n : Nat) : Prop where
  path_eq : s.dir.path = path
  liesIn : s.LiesIn folder
  freeSlot?_eq : s.dir.freeSlot? = some n
  hasFolder : s.disk.HasFolder (folder ++ [Slot.name n])

end ObjectStore

/-- Something that vacates no slot below `n`, does not read the directory again, and leaves a folder
in the place of slot `n`. -/
def StoreEvent.Leaves (path : Path) (folder : Location) (n : Nat) : StoreEvent → Prop
  | .call _ (.remove name) => ∀ k < n, name ≠ Slot.name k
  | .call _ other => other ≠ .rescan
  | .intrusion disk =>
    disk.find path = .ok folder ∧ disk.HasFolder folder ∧ disk.HasFolder (folder ++ [Slot.name n])

namespace ObjectStore

variable {s : ObjectStore} {path : Path} {folder : Location} {n : Nat}

/-- The store after some events. -/
def undergo (s : ObjectStore) : List StoreEvent → ObjectStore
  | [] => s
  | .call responses call :: events => (call.runOn responses s).state.undergo events
  | .intrusion disk :: events => { s with disk }.undergo events

namespace Stuck

/-- A stuck store stores nothing and stays stuck. -/
theorem saveOn (h : s.Stuck path folder n) (responses : List Response) (labels : Labels)
    (data : Bytes) :
    (∃ error, (saveOn responses labels data s).result = .error error) ∧
      (saveOn responses labels data s).state.Stuck path folder n := by
  obtain ⟨error, disk, hr, hs, hkeeps, -⟩ | ⟨header, m, disk, -, hfree, -, -, -, hnot, -⟩ :=
    h.liesIn.saveOn_cases responses labels data
  · rw [hs]
    exact ⟨⟨error, hr⟩, h.path_eq, h.liesIn.keepsFolders hkeeps, h.freeSlot?_eq,
      hkeeps.hasFolder h.hasFolder⟩
  · obtain rfl := Option.some.inj (h.freeSlot?_eq.symm.trans hfree)
    exact absurd h.hasFolder hnot

/-- A stuck store stays stuck when a slot is crossed off, unless it is a lower one. -/
theorem crossedOff (h : s.Stuck path folder n) {k : Nat} (hle : n ≤ k) :
    (s.crossedOff k).Stuck path folder n := by
  obtain ⟨hlt, hnot, hbelow⟩ := ObjectDir.freeSlot?_eq_some_iff.mp h.freeSlot?_eq
  refine ⟨h.path_eq, h.liesIn.crossedOff k, ?_, h.hasFolder⟩
  refine ObjectDir.freeSlot?_eq_some_iff.mpr ⟨hlt, ?_, fun j hj => ?_⟩
  · exact fun hmem => hnot (SlotSet.mem_erase.mp hmem).1
  · exact SlotSet.mem_erase.mpr ⟨hbelow j hj, by omega⟩

/-- A stuck store stays stuck on another disk with the same folders. -/
theorem keepsFolders (h : s.Stuck path folder n) {disk : Disk} (hkeeps : s.disk.KeepsFolders disk) :
    Stuck { s with disk } path folder n :=
  ⟨h.path_eq, h.liesIn.keepsFolders hkeeps, h.freeSlot?_eq, hkeeps.hasFolder h.hasFolder⟩

theorem remove (h : s.Stuck path folder n) {name : String} (hname : ∀ k < n, name ≠ Slot.name k) :
    (remove name s).state.Stuck path folder n := by
  have hle : ∀ k, name = Slot.name k → n ≤ k := fun k hk =>
    Nat.le_of_not_lt fun hlt => hname k hlt hk
  cases hr : (ObjectStore.remove name s).result with
  | error error =>
    rw [ObjectStore.remove] at hr ⊢
    obtain ⟨-, -, hs⟩ | ⟨k, cause, hk, -, -, hs⟩ := removeOn_error_cases hr
    · rwa [hs]
    · rw [hs]
      exact h.crossedOff (hle k (Slot.ofName?_eq_some_iff.mp hk).1)
  | ok _ =>
    obtain ⟨error, slots, herror, -⟩ | ⟨k, disk, hk, -, hs, hkeeps, -⟩ := h.liesIn.remove_cases name
    · rw [hr] at herror
      cases herror
    · rw [hs]
      exact (h.crossedOff (hle k hk)).keepsFolders hkeeps

/-- Calls leave a store stuck, except for those that could make another slot come first. -/
theorem runOn (h : s.Stuck path folder n) (responses : List Response) {call : StoreCall}
    (hcall : StoreEvent.Leaves path folder n (.call responses call)) :
    (call.runOn responses s).state.Stuck path folder n := by
  cases call with
  | save labels data =>
    rw [StoreCall.runOn, Action.map_apply]
    exact (h.saveOn responses labels data).2
  | remove name =>
    have hrun : (StoreCall.remove name).runOn responses = (StoreCall.remove name).run := rfl
    rw [hrun, StoreCall.run, Action.map_apply]
    exact h.remove hcall
  | rescan => exact absurd rfl hcall
  | _ =>
    rw [StoreCall.state_runOn_of_asks]
    · exact h
    · trivial

/-- A stuck store stays stuck through everything that leaves it a reason to be. By induction on the
calls and changes to the disk; a call is `Stuck.runOn`. -/
theorem undergo (h : s.Stuck path folder n) {events : List StoreEvent}
    (hevents : ∀ event ∈ events, event.Leaves path folder n) :
    (s.undergo events).Stuck path folder n := by
  induction events generalizing s with
  | nil => exact h
  | cons event events ih =>
    have hevent := hevents event List.mem_cons_self
    have hrest := fun other hother => hevents other (List.mem_cons_of_mem event hother)
    cases event with
    | intrusion disk =>
      obtain ⟨hfind, hfolder, hslot⟩ := hevent
      refine ih ⟨h.path_eq, ⟨?_, hfolder, h.liesIn.limit_le⟩, h.freeSlot?_eq, hslot⟩ hrest
      exact (congrArg disk.find h.path_eq).trans hfind
    | call responses call => exact ih (h.runOn responses hevent) hrest

end Stuck

/-! ### What is left after a removal that failed -/

/-- `s'` is a store that has forgotten slot `n`, with the disk as it was. -/
structure Forgets (s : ObjectStore) (n : Nat) (s' : ObjectStore) : Prop where
  disk_eq : s'.disk = s.disk
  /-- The name of the slot is not listed any more. -/
  filenames_eq : s'.dir.filenames = s.dir.filenames.filter (· != Slot.name n)
  /-- Nor is the slot counted. -/
  fileCount_eq : s'.dir.fileCount + (if n ∈ s.dir.slots then 1 else 0) = s.dir.fileCount
  /-- Nothing was forgotten only if nothing was known. -/
  eq_iff : s' = s ↔ n ∉ s.dir.slots
  /-- The slot is to take the next object when all slots below it are taken. -/
  freeSlot?_eq_some_iff :
    s'.dir.freeSlot? = some n ↔ n < s.dir.limit ∧ ∀ k < n, k ∈ s.dir.slots
  /-- Otherwise the next object goes where it would have gone. -/
  freeSlot?_of_ne : s'.dir.freeSlot? ≠ some n → s'.dir.freeSlot? = s.dir.freeSlot?
  /-- The slot is known again once the directory is read. -/
  rescan : ∀ folder, s.LiesIn folder → s.disk.node? (folder ++ [Slot.name n]) ≠ none →
    n ∈ (rescan s').state.dir.slots
  /-- A save that succeeds in the slot replaces the file that could not be deleted. -/
  replaces : ∀ folder, s.LiesIn folder → s'.dir.freeSlot? = some n →
    ∀ responses labels data name, (saveOn responses labels data s').result = .ok name →
      name = Slot.name n ∧ ∃ header, (saveOn responses labels data s').state.disk.node?
        (folder ++ [Slot.name n]) = some (.file (header ++ data))
  /-- If it was a folder, no save succeeds any more. -/
  blocks : ∀ folder, s.LiesIn folder → s.disk.HasFolder (folder ++ [Slot.name n]) →
    s'.dir.freeSlot? = some n → ∀ events,
      (∀ event ∈ events, StoreEvent.Leaves s.dir.path folder n event) →
      ∀ responses labels header data, labels.header = .ok header →
        ∃ cause, (saveOn responses labels data (s'.undergo events)).result =
          .error (.writeFailed ("writing " ++ (s.dir.slotPath n).text) (some cause))

/-- To cross off a slot of an object that is still there is to forget it. -/
private theorem forgets_crossedOff (s : ObjectStore) {n : Nat} (hn : n < Slot.bound) :
    s.Forgets n (s.crossedOff n) where
  disk_eq := rfl
  filenames_eq := s.filenames_crossedOff n
  fileCount_eq := s.fileCount_crossedOff n
  eq_iff := s.crossedOff_eq_self_iff n
  freeSlot?_eq_some_iff := s.freeSlot?_crossedOff_eq_some_iff n
  freeSlot?_of_ne := freeSlot?_crossedOff_of_ne
  rescan folder hlies hnode := by
    have hlies' := hlies.crossedOff n
    obtain ⟨slots, -, hs, hin⟩ := rescan_of_find hlies'.find_path hlies'.hasFolder hlies'.limit_le
    rw [hs]
    exact (hin.mem_slots_iff n).mpr ⟨hn, hnode⟩
  replaces folder hlies hfree responses labels data name hok := by
    have hlies' := hlies.crossedOff n
    obtain ⟨error, disk, hr, -⟩ | ⟨header, m, disk, -, hfree', hr, hs, -, -, hfile, -⟩ :=
      hlies'.saveOn_cases responses labels data
    · exact absurd (hr.symm.trans hok) nofun
    · obtain rfl := Option.some.inj (hfree.symm.trans hfree')
      rw [hs]
      exact ⟨Except.ok.inj (hok.symm.trans hr), header, hfile⟩
  blocks folder hlies hfolder hfree events hevents responses labels header data hheader := by
    have hlies' := hlies.crossedOff n
    have hstuck : (s.crossedOff n).Stuck s.dir.path folder n := ⟨rfl, hlies', hfree, hfolder⟩
    have hlater := hstuck.undergo hevents
    obtain ⟨⟨error, herror⟩, -⟩ := hlater.saveOn responses labels data
    obtain ⟨cause, rfl⟩ := saveOn_error_of_freeSlot? hheader hlater.freeSlot?_eq herror
    refine ⟨cause, ?_⟩
    rw [herror, ObjectDir.slotPath, hlater.path_eq]
    rfl

/-- **Forgotten slots.** A removal that failed had a name that is no slot's and changed nothing, or
the disk refused and the store has forgotten the slot: the disk is as before, while the slot is
neither listed nor counted, and the next to be chosen if those below it are taken. It is crossed off
before the disk is asked (`removeOn_of_not_removed`), and nothing else happens to the store. -/
theorem forgets_of_removeOn_error {response : Response} {name : String} {error : CacheError}
    (h : (removeOn response name s).result = .error error) :
    (Slot.ofName? name = none ∧ error = .malformedObject name "not an object filename" ∧
        (removeOn response name s).state = s) ∨
      ∃ n cause, Slot.ofName? name = some n ∧
        s.disk.removeFileOn (s.dir.slotPath n) response = .error cause ∧
        error = .io ("removing " ++ (s.dir.slotPath n).text) cause ∧
        s.Forgets n (removeOn response name s).state := by
  obtain hmalformed | ⟨n, cause, hname, hcause, herror, hs⟩ := removeOn_error_cases h
  · exact .inl hmalformed
  · refine .inr ⟨n, cause, hname, hcause, herror, ?_⟩
    rw [hs]
    exact s.forgets_crossedOff (Slot.ofName?_eq_some_iff.mp hname).2

/-- A disk with a folder in the place of the first slot. -/
def blockedDisk : Disk where
  nodes := [([], .folder 0), (["o"], .folder 0), (["o", "0"], .folder 0)]

/-- The store of a directory with two slots in this folder. -/
def blockedStore : ObjectStore where
  dir := { path := ⟨"/o"⟩, limit := 2, slots := .ofList [0] }
  disk := blockedDisk.put ["o"] (.folder 0o700)

/-- The folder cannot be deleted, and is forgotten. -/
theorem forgets_of_removeOn_error_folder :
    (removeOn .comply "0" blockedStore).result = .error (.io "removing /o/0" .isDirectory) ∧
      ∃ n cause, Slot.ofName? "0" = some n ∧
        blockedStore.disk.removeFileOn (blockedStore.dir.slotPath n) .comply = .error cause ∧
        CacheError.io "removing /o/0" .isDirectory =
          .io ("removing " ++ (blockedStore.dir.slotPath n).text) cause ∧
        blockedStore.Forgets n (removeOn .comply "0" blockedStore).state := by
  have h : (removeOn .comply "0" blockedStore).result =
      .error (.io "removing /o/0" .isDirectory) := by rfl
  obtain ⟨hname, -⟩ | hforgets := forgets_of_removeOn_error h
  · exact absurd hname (by decide +kernel)
  · exact ⟨h, hforgets⟩

/-- A directory is opened, and the folder in its first slot is listed. Deleting it fails. It is
still there, but neither listed nor counted; the next save is to go into its slot and fails, and so
is the one after that, although the second slot is free. -/
theorem remove_forgets_folder :
    (openAt ⟨"/o"⟩ (2 : UInt64).toNat blockedDisk).result = .ok blockedStore ∧
      blockedStore.dir.filenames = ["0"] ∧ blockedStore.dir.fileCount = 1 ∧
      (remove "0" blockedStore).result = .error (.io "removing /o/0" .isDirectory) ∧
      let s := (remove "0" blockedStore).state
      s.disk.stat ⟨"/o/0"⟩ = .ok (.folder 0) ∧ s.dir.filenames = [] ∧ s.dir.fileCount = 0 ∧
        (save ⟨[]⟩ [1] s).result = .error (.writeFailed "writing /o/0" (some .isDirectory)) ∧
        (save ⟨[]⟩ [1] s).state.dir.freeSlot? = some 0 ∧ 1 ∉ s.dir.slots :=
  ⟨by rfl, by rfl, by rfl, by rfl, by rfl, by rfl, by rfl, by rfl, by rfl, by decide +kernel⟩

end ObjectStore

end BlobCache
