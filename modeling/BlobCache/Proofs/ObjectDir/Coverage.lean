import BlobCache.Proofs.ObjectDir.Access
import BlobCache.Proofs.ObjectDir.Opening
import BlobCache.Proofs.ObjectDir.Registration

/-!
# What registering covers

A process registers its directory with an allowlist and gives up its rights. From then on it makes
calls (`StoreEvent`), on devices that fail as they like and on a disk that others may change, and
asks only for names that saves have given it or that the directory has listed
(`ObjectStore.Informed`).

All that it touches are files of slots below the limit and of slots that were listed when the
directory was opened, and of these exactly the ones below the limit are covered
(`ObjectStore.permits_accesses_iff`). So registering covers everything if no slot from the limit on
was listed. Opening does not see to this: a folder that was filled under a larger limit has such
slots, they are listed, and to ask for the object in one is not permitted
(`ObjectStore.opens_uncovered_file`).
-/

namespace BlobCache

/-- The names that a call passes on. -/
def StoreCall.names : StoreCall → List String
  | .remove name | .load name | .loadBody name => [name]
  | .save _ _ | .list | .count | .usage | .rescan => []

/-- The names that an answer tells. -/
def StoreAnswer.told : StoreAnswer → List String
  | .name new => [new]
  | .names listed => listed
  | .object _ | .body _ | .number _ | .done => []

/-- What happens at a store. -/
inductive StoreEvent
  /-- A call is made, on a device that answers as given. -/
  | call (responses : List Response) (call : StoreCall)
  /-- Somebody else has changed the disk. -/
  | intrusion (disk : Disk)
  deriving DecidableEq, Repr

namespace ObjectStore

/-- The accesses that a store makes while something happens at it. -/
def accesses (s : ObjectStore) : List StoreEvent → List Access
  | [] => []
  | .call responses call :: events =>
    let traced := call.traced s responses
    traced.accesses ++ traced.value.2.accesses events
  | .intrusion disk :: events => { s with disk }.accesses events

/-- The calls pass on names that are known, and the directory is not read again. A name is known
from the start, or because an answer told it. -/
def Informed (s : ObjectStore) (known : List String) : List StoreEvent → Prop
  | [] => True
  | .call responses call :: events =>
    let answer := call.runOn responses s
    call ≠ .rescan ∧ (∀ name ∈ call.names, name ∈ known) ∧
      answer.state.Informed (known ++ answer.result.toOption.elim [] StoreAnswer.told) events
  | .intrusion disk :: events => { s with disk }.Informed known events

end ObjectStore

/-- A slot that a directory has or lists. -/
def ObjectDir.Uses (dir : ObjectDir) (slot : Nat) : Prop :=
  slot < dir.limit ∨ slot ∈ dir.slots

namespace ObjectStore

variable {s : ObjectStore} {dir : ObjectDir} {known : List String} {responses : List Response}

/-- Storing an object fails and leaves the directory alone, or fills the free slot. -/
theorem saveOn_cases (responses : List Response) (labels : Labels) (data : Bytes)
    (s : ObjectStore) :
    (∃ e disk, (saveOn responses labels data s).result = .error e ∧
        (saveOn responses labels data s).state = { s with disk }) ∨
      ∃ slot disk, s.dir.freeSlot? = some slot ∧
        (saveOn responses labels data s).result = .ok (Slot.name slot) ∧
        (saveOn responses labels data s).state = s.filled slot disk := by
  rw [saveOn]
  cases hheader : labels.header with
  | error e =>
    rw [saveTidying_of_header_error hheader]
    exact .inl ⟨_, s.disk, rfl, rfl⟩
  | ok header =>
    cases hfree : s.dir.freeSlot? with
    | none =>
      rw [saveTidying_of_full hheader hfree]
      exact .inl ⟨_, s.disk, rfl, rfl⟩
    | some slot =>
      rcases hperform : s.disk.perform (s.dir.placement slot header data) responses with
        ⟨disk, e | _⟩
      · exact .inl ⟨_, _, saveTidying_of_not_placed hheader hfree hperform⟩
      · exact .inr ⟨slot, disk, rfl, saveTidying_of_placed hheader hfree hperform⟩

/-- Deleting an object can only vacate slots. -/
private theorem remove_frame (name : String) (s : ObjectStore) :
    ∃ slots disk, (remove name s).state = { dir := { s.dir with slots }, disk } ∧
      ∀ slot ∈ slots, slot ∈ s.dir.slots := by
  rw [remove]
  cases hname : Slot.ofName? name with
  | none =>
    rw [removeOn_of_ofName?_eq_none hname]
    exact ⟨s.dir.slots, s.disk, rfl, fun _ h => h⟩
  | some slot =>
    have hslots : ∀ n ∈ s.dir.slots.erase slot, n ∈ s.dir.slots := fun _ hn =>
      (SlotSet.mem_erase.mp hn).1
    cases hremoved : s.disk.removeFileOn (s.dir.slotPath slot) .comply with
    | ok disk => exact ⟨_, disk, (removeOn_of_removed hname hremoved).2, hslots⟩
    | error e => exact ⟨_, s.disk, (removeOn_of_not_removed hname hremoved).2, hslots⟩

/-- A store of a directory, and names, that stay within what the directory had and listed at some
time. -/
structure Within (s : ObjectStore) (dir : ObjectDir) (known : List String) : Prop where
  path_eq : s.dir.path = dir.path
  limit_eq : s.dir.limit = dir.limit
  slots : ∀ slot ∈ s.dir.slots, dir.Uses slot
  known : ∀ name ∈ known, ∃ slot, name = Slot.name slot ∧ dir.Uses slot

namespace Within

/-- What is filled is a slot that the directory has. -/
theorem freeSlot (h : s.Within dir known) {slot : Nat} (hfree : s.dir.freeSlot? = some slot) :
    dir.Uses slot :=
  .inl (h.limit_eq ▸ (ObjectDir.of_freeSlot? hfree).2)

/-- Calls with names that are known reach nothing else. -/
theorem reaches (h : s.Within dir known) {call : StoreCall} {slot : Nat}
    (hnames : ∀ name ∈ call.names, name ∈ known) (hslot : call.Reaches s slot) : dir.Uses slot := by
  have hname : ∀ name ∈ call.names, Slot.ofName? name = some slot → dir.Uses slot := by
    intro name hname hof
    obtain ⟨m, rfl, hm⟩ := h.known name (hnames name hname)
    obtain ⟨heq, -⟩ := Slot.ofName?_eq_some_iff.mp hof
    exact Slot.name_injective heq ▸ hm
  cases call with
  | save labels data => exact h.freeSlot hslot
  | remove name => exact hname name List.mem_cons_self hslot
  | load name => exact hname name List.mem_cons_self hslot
  | loadBody name => exact hname name List.mem_cons_self hslot
  | usage => exact h.slots slot hslot
  | list => exact hslot.elim
  | count => exact hslot.elim
  | rescan => exact hslot.elim

/-- Nothing new is known from answers without names. -/
theorem map (h : s.Within dir known) {α : Type} {f : α → StoreAnswer}
    (hf : ∀ a, (f a).told = []) (result : Except CacheError α) :
    s.Within dir (known ++ (result.map f).toOption.elim [] StoreAnswer.told) := by
  have hnone : (result.map f).toOption.elim [] StoreAnswer.told = [] := by
    cases result with
    | ok a => exact hf a
    | error e => rfl
  rwa [hnone, List.append_nil]

/-- Calls keep within, and tell nothing else. -/
theorem call (h : s.Within dir known) (responses : List Response) {call : StoreCall}
    (hcall : call ≠ .rescan) :
    (call.runOn responses s).state.Within dir
      (known ++ (call.runOn responses s).result.toOption.elim [] StoreAnswer.told) := by
  cases call with
  | save labels data =>
    rw [StoreCall.runOn, Action.map_apply]
    obtain ⟨e, disk, hr, hs⟩ | ⟨slot, disk, hfree, hr, hs⟩ :=
      saveOn_cases responses labels data s
    · rw [hr, hs]
      have hsame : Within { s with disk } dir known := ⟨h.path_eq, h.limit_eq, h.slots, h.known⟩
      exact hsame.map (f := StoreAnswer.number) (fun _ => rfl) (.error e)
    · rw [hr, hs]
      refine ⟨h.path_eq, h.limit_eq, fun n hn => ?_, fun name hname => ?_⟩
      · obtain rfl | hn := SlotSet.mem_insert.mp hn
        · exact h.freeSlot hfree
        · exact h.slots n hn
      · obtain hname | hname := List.mem_append.mp hname
        · exact h.known name hname
        · exact ⟨slot, List.mem_singleton.mp hname, h.freeSlot hfree⟩
  | remove name =>
    obtain ⟨slots, disk, hs, hslots⟩ := remove_frame name s
    have hless : (remove name s).state.Within dir known := by
      rw [hs]
      exact ⟨h.path_eq, h.limit_eq, fun n hn => h.slots n (hslots n hn), h.known⟩
    change Within ((StoreCall.remove name).run s).state dir
      (known ++ ((StoreCall.remove name).run s).result.toOption.elim [] StoreAnswer.told)
    rw [StoreCall.run, Action.map_apply]
    exact hless.map (fun _ => rfl) (remove name s).result
  | load name =>
    change Within ((StoreCall.load name).run s).state dir
      (known ++ ((StoreCall.load name).run s).result.toOption.elim [] StoreAnswer.told)
    rw [StoreCall.run, Action.map_apply, load_apply]
    exact h.map (fun _ => rfl) (s.object name)
  | loadBody name =>
    change Within ((StoreCall.loadBody name).run s).state dir
      (known ++ ((StoreCall.loadBody name).run s).result.toOption.elim [] StoreAnswer.told)
    rw [StoreCall.run, Action.map_apply, loadBody_apply]
    exact h.map (fun _ => rfl) (s.body name)
  | list =>
    refine ⟨h.path_eq, h.limit_eq, h.slots, fun name hname => ?_⟩
    obtain hname | hname := List.mem_append.mp hname
    · exact h.known name hname
    · obtain ⟨slot, hslot, rfl⟩ := List.mem_map.mp hname
      exact ⟨slot, rfl, h.slots slot hslot⟩
  | count => exact h.map (fun _ => rfl) (.ok s.dir.fileCount)
  | usage =>
    change Within (StoreCall.usage.run s).state dir
      (known ++ (StoreCall.usage.run s).result.toOption.elim [] StoreAnswer.told)
    rw [StoreCall.run, Action.bind_apply, Action.get_apply]
    dsimp only
    rw [Action.map_apply, Action.ofExcept_apply]
    exact h.map (fun _ => rfl) s.usage
  | rescan => exact absurd rfl hcall

/-- While all that is asked for is known, nothing else is touched. By induction on the events: a
call touches what it reaches (`StoreCall.exists_of_mem_accesses`), which is in use by the directory,
and leaves a store within it; what others do to the disk changes nothing that the store knows. -/
theorem exists_of_mem_accesses {events : List StoreEvent} (h : s.Within dir known)
    (hinformed : s.Informed known events) {a : Access} (ha : a ∈ s.accesses events) :
    ∃ slot, dir.Uses slot ∧ a ∈ dir.slotAccesses slot := by
  induction events generalizing s known with
  | nil => cases ha
  | cons event events ih =>
    cases event with
    | call responses call =>
      obtain ⟨hcall, hnames, hrest⟩ := hinformed
      obtain hnow | hlater := List.mem_append.mp ha
      · obtain ⟨slot, hslot, hmem⟩ := StoreCall.exists_of_mem_accesses hnow
        refine ⟨slot, h.reaches hnames hslot, ?_⟩
        rwa [ObjectDir.slotAccesses, ObjectDir.slotPath, ObjectDir.temporaryPath, h.path_eq] at hmem
      · rw [StoreCall.value_traced] at hlater
        exact ih (h.call responses hcall) hrest hlater
    | intrusion disk =>
      exact ih (s := { s with disk }) ⟨h.path_eq, h.limit_eq, h.slots, h.known⟩ hinformed ha

end Within

/-- What a store may do to a file of a slot, a registered directory has permitted if it has the
slot. -/
private theorem permits_of_mem_slotAccesses {rules : Allowlist} {slot : Nat} {a : Access}
    (hregister : (dir.register rules).result = .ok ()) (ha : a ∈ dir.slotAccesses slot) :
    (dir.register rules).state.permits a.op a.path ↔
      slot < dir.limit ∨ rules.permits a.op a.path := by
  have hrules : dir.slotAccesses slot =
      (dir.slotRules slot).map fun rule => ⟨rule.op, rule.path⟩ := rfl
  rw [hrules] at ha
  obtain ⟨rule, hrule, rfl⟩ := List.mem_map.mp ha
  rw [ObjectDir.permits_register_iff hregister (ObjectDir.isFileOf_of_mem_slotRules hrule), or_comm]
  refine or_congr_left (and_iff_left ⟨rule, hrule, rfl, ?_⟩)
  exact Eq.refl rule.path.components

/-- Who has the slots listed may ask for the object in each of them, which opens its file. -/
private theorem informed_list_loadBody {slot : Nat} (hslot : slot ∈ s.dir.slots)
    (hlt : slot < Slot.bound) :
    s.Informed [] [.call [] .list, .call [] (.loadBody (Slot.name slot))] ∧
      ⟨.read, s.dir.slotPath slot⟩ ∈
        s.accesses [.call [] .list, .call [] (.loadBody (Slot.name slot))] := by
  have hname : Slot.name slot ∈ s.dir.filenames := List.mem_map_of_mem hslot
  constructor
  · refine ⟨nofun, nofun, nofun, fun name hmem => ?_, trivial⟩
    obtain rfl := List.mem_singleton.mp hmem
    exact hname
  · rw [accesses, accesses, StoreCall.value_traced]
    refine List.mem_append_right _ (List.mem_append_left _ ?_)
    exact StoreCall.read_mem_accesses_loadBody s hlt

/-- **Coverage.** All that a store touches after it was opened and registered are files of slots
below the limit and of slots that were listed when it was opened (`Within.exists_of_mem_accesses`).
What it does to a file of a slot below the limit is permitted, and what it does to a file of another
slot only if it was permitted before (`ObjectDir.permits_register_iff`). Every slot that was listed
is touched if its object is asked for, so the slots from the limit on make a difference. -/
theorem permits_accesses_iff {path : Path} {limit : UInt64} {disk : Disk} {s : ObjectStore}
    {rules : Allowlist} (hopen : (openAt path limit.toNat disk).result = .ok s)
    (hregister : (s.dir.register rules).result = .ok ()) :
    (∀ events, s.Informed [] events → ∀ a ∈ s.accesses events,
      ∃ slot, (slot < limit.toNat ∨ slot ∈ s.dir.slots) ∧ a ∈ s.dir.slotAccesses slot ∧
        ((s.dir.register rules).state.permits a.op a.path ↔
          slot < limit.toNat ∨ rules.permits a.op a.path)) ∧
    ∀ slot ∈ s.dir.slots, ∃ events, s.Informed [] events ∧
      ⟨.read, s.dir.slotPath slot⟩ ∈ s.accesses events := by
  have hlimit := limit_of_openAt hopen
  refine ⟨fun events hinformed a ha => ?_, fun slot hslot => ?_⟩
  · have hwithin : s.Within s.dir [] := ⟨rfl, rfl, fun _ h => .inr h, nofun⟩
    obtain ⟨slot, huses, hmem⟩ := hwithin.exists_of_mem_accesses hinformed ha
    have hpermits := permits_of_mem_slotAccesses hregister hmem
    rw [ObjectDir.Uses, hlimit] at huses
    rw [hlimit] at hpermits
    exact ⟨slot, huses, hmem, hpermits⟩
  · obtain ⟨-, folder, hin⟩ := inStep_openAt (Slot.toNat_le_bound limit) hopen
    have hlt := ((hin.mem_slots_iff slot).mp hslot).1
    exact ⟨_, informed_list_loadBody hslot hlt⟩

/-- A disk with a folder that was filled when the directory had more slots. -/
def overfullDisk : Disk where
  nodes := [([], .folder 0), (["o"], .folder 0), (["o", "5"], .file [0, 120])]

/-- The store of a directory with one slot in this folder. -/
def overfullStore : ObjectStore where
  dir := { path := ⟨"/o"⟩, limit := 1, slots := .ofList [5] }
  disk := overfullDisk.put ["o"] (.folder 0o700)

/-- The object in slot 5 is touched and not covered; a new object is covered. -/
theorem permits_accesses_iff_overfull :
    ((openAt ⟨"/o"⟩ (1 : UInt64).toNat overfullDisk).result = .ok overfullStore ∧
      (overfullStore.dir.register {}).result = .ok ()) ∧
    (∀ events, overfullStore.Informed [] events → ∀ a ∈ overfullStore.accesses events,
      ∃ slot, (slot < (1 : UInt64).toNat ∨ slot ∈ overfullStore.dir.slots) ∧
        a ∈ overfullStore.dir.slotAccesses slot ∧
        ((overfullStore.dir.register {}).state.permits a.op a.path ↔
          slot < (1 : UInt64).toNat ∨ ({} : Allowlist).permits a.op a.path)) ∧
    ∀ slot ∈ overfullStore.dir.slots, ∃ events, overfullStore.Informed [] events ∧
      ⟨.read, overfullStore.dir.slotPath slot⟩ ∈ overfullStore.accesses events := by
  have hopen : (openAt ⟨"/o"⟩ (1 : UInt64).toNat overfullDisk).result = .ok overfullStore := by rfl
  have hregister : (overfullStore.dir.register {}).result = .ok () := by rfl
  exact ⟨⟨hopen, hregister⟩, permits_accesses_iff hopen hregister⟩

/-- A directory with one slot opens on a folder with an object in slot 5 and is registered. The
object is listed, but the rules do not permit its file to be opened, as a call for its body does. -/
theorem opens_uncovered_file :
    (openAt ⟨"/o"⟩ (1 : UInt64).toNat overfullDisk).result = .ok overfullStore ∧
      (overfullStore.dir.register {}).result = .ok () ∧
      overfullStore.dir.filenames = ["5"] ∧
      overfullStore.Informed [] [.call [] .list, .call [] (.loadBody "5")] ∧
      ⟨.read, ⟨"/o/5"⟩⟩ ∈ overfullStore.accesses [.call [] .list, .call [] (.loadBody "5")] ∧
      (overfullStore.dir.register {}).state.permits .read ⟨"/o/5"⟩ = false := by
  refine ⟨by rfl, by rfl, by rfl, ⟨nofun, nofun, nofun, ?_, trivial⟩, ?_, ?_⟩
  · decide +kernel
  · decide +kernel
  · decide +kernel

end ObjectStore

end BlobCache
