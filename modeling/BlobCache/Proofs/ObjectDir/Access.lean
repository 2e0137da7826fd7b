import BlobCache.Proofs.ObjectDir.SlotMap
import BlobCache.Proofs.ObjectDir.Store

/-!
# Accesses of a store

Which operations on files a store carries out, and on which paths. A `Traced` computation keeps a
record of them beside its value. The calls of a store are written down here a second time as traced
computations, in which every operation on the disk leaves its record, be it carried out or refused;
without the record they are the calls (`StoreCall.value_traced`). An open file is read, appended to
and synced without its path, so of these operations only the opening is recorded.

What a call can touch are the files of the slots that it reaches (`StoreCall.Reaches`): the free
slot for a new object, the slot of a name that was given, and the slots that the store knows when it
sums up their sizes. `StoreCall.exists_of_mem_accesses` says so for every call, every disk and every
device, the tidying up after a failed save included.
-/

namespace BlobCache

/-- An operation on the file under a path. -/
structure Access where
  /-- The operation. -/
  op : FileOp
  /-- The path. -/
  path : Path
  deriving DecidableEq, Repr

/-- A value, and the accesses that it took to get it. -/
structure Traced (α : Type) where
  /-- The value. -/
  value : α
  /-- The accesses, oldest first. -/
  accesses : List Access

namespace Traced

variable {α β : Type}

instance : Monad Traced where
  pure a := ⟨a, []⟩
  bind x f := ⟨(f x.value).value, x.accesses ++ (f x.value).accesses⟩

/-- Records accesses. -/
def record (accesses : List Access) : Traced Unit := ⟨(), accesses⟩

@[simp]
theorem value_pure (a : α) : (pure a : Traced α).value = a := rfl

@[simp]
theorem accesses_pure (a : α) : (pure a : Traced α).accesses = [] := rfl

@[simp]
theorem value_bind (x : Traced α) (f : α → Traced β) : (x >>= f).value = (f x.value).value := rfl

@[simp]
theorem accesses_bind (x : Traced α) (f : α → Traced β) :
    (x >>= f).accesses = x.accesses ++ (f x.value).accesses := rfl

@[simp]
theorem accesses_record (accesses : List Access) : (record accesses).accesses = accesses := rfl

end Traced

/-! ### Operations on the disk -/

/-- The accesses of an operation. Appending and syncing go through the open file. -/
def FileOperation.accesses : FileOperation → List Access
  | create path => [⟨.read, path⟩]
  | append _ _ | sync _ => []
  | rename source _ => [⟨.rename, source⟩]

namespace Disk

/-- Opens the node that a path leads to. -/
def openTraced (d : Disk) (p : Path) : Traced (Except IoError Node) := do
  Traced.record [⟨.read, p⟩]
  return d.stat p

/-- Asks for the node that a path leads to. -/
def statTraced (d : Disk) (p : Path) : Traced (Except IoError Node) := do
  Traced.record [⟨.stat, p⟩]
  return d.stat p

/-- Takes a file out of its folder. -/
def removeTraced (d : Disk) (p : Path) : Traced (Except IoError Disk) := do
  Traced.record [⟨.unlink, p⟩]
  return d.removeFile p

/-- Carries out operations up to the first that fails. -/
def performTraced (d : Disk) : List FileOperation → List Response →
    Traced (Disk × Except IoError Unit)
  | [], _ => return (d, .ok ())
  | op :: ops, responses => do
    Traced.record op.accesses
    match responses.head? with
    | some (.fail written) => return (op.interrupted d written, .error deviceFailure)
    | _ =>
      match op.apply d with
      | .ok d => d.performTraced ops responses.tail
      | .error e => return (d, .error e)

@[simp]
theorem value_openTraced (d : Disk) (p : Path) : (d.openTraced p).value = d.stat p := rfl

@[simp]
theorem accesses_openTraced (d : Disk) (p : Path) :
    (d.openTraced p).accesses = [⟨.read, p⟩] := rfl

@[simp]
theorem value_statTraced (d : Disk) (p : Path) : (d.statTraced p).value = d.stat p := rfl

@[simp]
theorem accesses_statTraced (d : Disk) (p : Path) :
    (d.statTraced p).accesses = [⟨.stat, p⟩] := rfl

@[simp]
theorem value_removeTraced (d : Disk) (p : Path) : (d.removeTraced p).value = d.removeFile p := rfl

@[simp]
theorem accesses_removeTraced (d : Disk) (p : Path) :
    (d.removeTraced p).accesses = [⟨.unlink, p⟩] := rfl

@[simp]
theorem value_performTraced (d : Disk) (ops : List FileOperation) (responses : List Response) :
    (d.performTraced ops responses).value = d.perform ops responses := by
  induction ops generalizing d responses with
  | nil => rfl
  | cons op ops ih =>
    rw [performTraced, perform, Traced.value_bind]
    rcases responses.head? with _ | _ | written
    case some.fail => rfl
    all_goals
      cases op.apply d with
      | ok d₁ => exact ih d₁ responses.tail
      | error e => rfl

/-- Only the operations that were to be carried out make accesses. -/
private theorem mem_accesses_performTraced {d : Disk} {ops : List FileOperation}
    {responses : List Response} {a : Access} (ha : a ∈ (d.performTraced ops responses).accesses) :
    a ∈ ops.flatMap FileOperation.accesses := by
  induction ops generalizing d responses with
  | nil => cases ha
  | cons op ops ih =>
    rw [performTraced, Traced.accesses_bind, List.mem_append] at ha
    rw [List.flatMap_cons, List.mem_append]
    refine ha.imp id fun hrest => ?_
    split at hrest
    · cases hrest
    · cases happly : op.apply d with
      | ok d₁ =>
        rw [happly] at hrest
        exact ih hrest
      | error e =>
        rw [happly] at hrest
        cases hrest

end Disk

/-! ### Calls of a store -/

namespace ObjectStore

/-- The header and the body in the file of an object. -/
def readTraced (s : ObjectStore) (filename : String) :
    Traced (Except CacheError (Bytes × Bytes)) := do
  match Slot.ofName? filename with
  | none => return .error (.malformedObject filename "not an object filename")
  | some slot =>
    let path := s.dir.slotPath slot
    match ← s.disk.openTraced path with
    | .error e => return .error (.io ("opening " ++ path.text) e)
    | .ok (.folder _) => return .error (.io ("mapping " ++ path.text) .isDirectory)
    | .ok (.file file) =>
      match file.cutAtZero? with
      | some parts => return .ok parts
      | none => return .error (.malformedObject filename "label header is not terminated")

/-- The object under a name. -/
def objectTraced (s : ObjectStore) (filename : String) :
    Traced (Except CacheError StoredObject) := do
  match ← s.readTraced filename with
  | .error e => return .error e
  | .ok (header, body) =>
    match Labels.ofHeader header with
    | .ok labels => return .ok { labels, body }
    | .error fault => return .error (.malformedObject filename (Labels.unreadableHeader fault))

/-- The body of the object under a name. -/
def bodyTraced (s : ObjectStore) (filename : String) : Traced (Except CacheError Bytes) := do
  return (← s.readTraced filename).map Prod.snd

/-- Number of bytes that the objects in some slots take, added to a total. -/
def usageTraced (s : ObjectStore) : List Nat → Nat → Traced (Except CacheError Nat)
  | [], total => return .ok total
  | slot :: slots, total => do
    let path := s.dir.slotPath slot
    match ← s.disk.statTraced path with
    | .ok node => s.usageTraced slots (total + node.size)
    | .error .notFound => s.usageTraced slots total
    | .error e => return .error (.io ("stat " ++ path.text) e)

/-- Stores an object in the lowest free slot. -/
def saveTraced (s : ObjectStore) (responses : List Response) (labels : Labels) (data : Bytes) :
    Traced (Except CacheError String × ObjectStore) := do
  match labels.header with
  | .error e => return (.error (.invalidArgument e.message), s)
  | .ok header =>
    match s.dir.freeSlot? with
    | none =>
      let reason := s!"storage directory {s.dir.path.text} full ({s.dir.limit} files)"
      return (.error (.writeFailed reason none), s)
    | some slot =>
      match ← s.disk.performTraced (s.dir.placement slot header data) responses with
      | (disk, .error e) =>
        let tidied := (← disk.removeTraced (s.dir.temporaryPath slot)).toOption.getD disk
        return (.error (.writeFailed ("writing " ++ (s.dir.slotPath slot).text) (some e)),
          { s with disk := tidied })
      | (disk, .ok ()) => return (.ok (Slot.name slot), s.filled slot disk)

/-- Deletes the object under a name. -/
def removeTraced (s : ObjectStore) (filename : String) :
    Traced (Except CacheError Unit × ObjectStore) := do
  match Slot.ofName? filename with
  | none => return (.error (.malformedObject filename "not an object filename"), s)
  | some slot =>
    let path := s.dir.slotPath slot
    let dir := { s.dir with slots := s.dir.slots.erase slot }
    match ← s.disk.removeTraced path with
    | .ok disk => return (.ok (), { dir, disk })
    | .error .notFound => return (.ok (), { s with dir })
    | .error e => return (.error (.io ("removing " ++ path.text) e), { s with dir })

variable (s : ObjectStore) (filename : String)

@[simp]
theorem value_readTraced : (s.readTraced filename).value = s.read filename := by
  rw [readTraced, read]
  cases Slot.ofName? filename with
  | none => rfl
  | some slot =>
    dsimp only
    rw [Traced.value_bind, Disk.value_openTraced]
    cases s.disk.stat (s.dir.slotPath slot) with
    | error e => rfl
    | ok node =>
      cases node with
      | folder mode => rfl
      | file file =>
        dsimp only
        cases file.cutAtZero? with
        | none => rfl
        | some parts => rfl

private theorem value_objectTraced : (s.objectTraced filename).value = s.object filename := by
  rw [objectTraced, object, Traced.value_bind, value_readTraced]
  cases s.read filename with
  | error e => rfl
  | ok parts =>
    dsimp only [bind, Except.bind]
    cases Labels.ofHeader parts.1 with
    | ok labels => rfl
    | error fault => rfl

private theorem value_bodyTraced : (s.bodyTraced filename).value = s.body filename := by
  rw [bodyTraced, body, Traced.value_bind, value_readTraced]
  cases s.read filename with
  | error e => rfl
  | ok parts => rfl

private theorem value_usageTraced : (s.usageTraced s.dir.slots.toList 0).value = s.usage := by
  rw [usage]
  generalize 0 = total
  induction s.dir.slots.toList generalizing total with
  | nil => rfl
  | cons slot slots ih =>
    rw [usageTraced, List.foldlM_cons, Traced.value_bind, Disk.value_statTraced]
    dsimp only
    cases s.disk.stat (s.dir.slotPath slot) with
    | ok node => exact ih (total + node.size)
    | error e =>
      cases e with
      | notFound => exact ih total
      | _ => rfl

private theorem value_saveTraced (responses : List Response) (labels : Labels) (data : Bytes) :
    (s.saveTraced responses labels data).value =
      ((saveOn responses labels data s).result, (saveOn responses labels data s).state) := by
  rw [saveTraced, saveOn, saveTidying]
  cases labels.header with
  | error e => rfl
  | ok header =>
    dsimp only
    rw [Action.bind_apply, Action.get_apply]
    dsimp only
    cases s.dir.freeSlot? with
    | none => rfl
    | some slot =>
      dsimp only
      rw [Traced.value_bind, Disk.value_performTraced]
      rcases s.disk.perform (s.dir.placement slot header data) responses with ⟨disk, _ | _⟩ <;> rfl

theorem value_removeTraced :
    (s.removeTraced filename).value =
      ((remove filename s).result, (remove filename s).state) := by
  rw [removeTraced, remove, removeOn]
  cases Slot.ofName? filename with
  | none => rfl
  | some slot =>
    dsimp only
    rw [Action.bind_apply, Action.get_apply]
    dsimp only
    rw [Traced.value_bind, Disk.value_removeTraced]
    rw [Disk.removeFileOn]
    cases s.disk.removeFile (s.dir.slotPath slot) with
    | ok disk => rfl
    | error e => cases e <;> rfl

end ObjectStore

namespace StoreCall

/-- Makes a call on a device that answers as given; only saving minds. -/
def runOn (responses : List Response) : StoreCall → Action ObjectStore StoreAnswer
  | save labels data => StoreAnswer.name <$> ObjectStore.saveOn responses labels data
  | call => call.run

/-- On a device that complies, a call is made as ever. -/
theorem runOn_nil (call : StoreCall) : call.runOn [] = call.run := by
  cases call <;> rfl

/-- A call that asks for something. -/
def Asks : StoreCall → Prop
  | save _ _ | remove _ | rescan => False
  | load _ | loadBody _ | list | count | usage => True

/-- Who asks leaves the store alone. -/
theorem state_runOn_of_asks {call : StoreCall} (h : call.Asks) (responses : List Response)
    (s : ObjectStore) : (call.runOn responses s).state = s := by
  cases call with
  | save labels data => exact h.elim
  | remove name => exact h.elim
  | rescan => exact h.elim
  | load name =>
    have hrun : (load name).runOn responses = (load name).run := rfl
    rw [hrun, run, Action.map_apply, ObjectStore.load_apply]
  | loadBody name =>
    have hrun : (loadBody name).runOn responses = (loadBody name).run := rfl
    rw [hrun, run, Action.map_apply, ObjectStore.loadBody_apply]
  | list => rfl
  | count => rfl
  | usage =>
    have hrun : usage.runOn responses = usage.run := rfl
    rw [hrun, run, Action.bind_apply, Action.get_apply]
    dsimp only
    rw [Action.map_apply, Action.ofExcept_apply]

/-- Makes a call and records the accesses. -/
def traced (s : ObjectStore) (responses : List Response) :
    StoreCall → Traced (Except CacheError StoreAnswer × ObjectStore)
  | save labels data => do
    let (result, s) ← s.saveTraced responses labels data
    return (result.map .name, s)
  | remove name => do
    let (result, s) ← s.removeTraced name
    return (result.map fun _ => .done, s)
  | load name => do return ((← s.objectTraced name).map .object, s)
  | loadBody name => do return ((← s.bodyTraced name).map .body, s)
  | list => return (.ok (.names s.dir.filenames), s)
  | count => return (.ok (.number s.dir.fileCount), s)
  | usage => do return ((← s.usageTraced s.dir.slots.toList 0).map .number, s)
  | rescan => do
    let outcome := ObjectStore.rescan s
    return (outcome.result.map fun _ => .done, outcome.state)

/-- Without the record, the call is left. -/
theorem value_traced (s : ObjectStore) (responses : List Response) (call : StoreCall) :
    (call.traced s responses).value =
      ((call.runOn responses s).result, (call.runOn responses s).state) := by
  cases call with
  | save labels data =>
    rw [traced, runOn, Traced.value_bind, ObjectStore.value_saveTraced, Action.map_apply]
    rfl
  | remove name =>
    change _ = ((run (remove name) s).result, (run (remove name) s).state)
    rw [traced, Traced.value_bind, ObjectStore.value_removeTraced, run, Action.map_apply]
    rfl
  | load name =>
    change _ = ((run (load name) s).result, (run (load name) s).state)
    rw [traced, Traced.value_bind, ObjectStore.value_objectTraced, run, Action.map_apply,
      ObjectStore.load_apply]
    rfl
  | loadBody name =>
    change _ = ((run (loadBody name) s).result, (run (loadBody name) s).state)
    rw [traced, Traced.value_bind, ObjectStore.value_bodyTraced, run, Action.map_apply,
      ObjectStore.loadBody_apply]
    rfl
  | list => rfl
  | count => rfl
  | usage =>
    change _ = ((run usage s).result, (run usage s).state)
    rw [traced, Traced.value_bind, ObjectStore.value_usageTraced, run, Action.bind_apply,
      Action.get_apply]
    dsimp only
    rw [Action.map_apply, Action.ofExcept_apply]
    rfl
  | rescan =>
    change _ = ((run rescan s).result, (run rescan s).state)
    rw [run, Action.map_apply]
    rfl

end StoreCall

/-! ### What a call touches -/

/-- The accesses to the files of a slot. -/
def ObjectDir.slotAccesses (dir : ObjectDir) (slot : Nat) : List Access :=
  let path := dir.slotPath slot
  let temporary := dir.temporaryPath slot
  [⟨.read, path⟩, ⟨.read, temporary⟩, ⟨.stat, path⟩, ⟨.stat, temporary⟩, ⟨.unlink, path⟩,
    ⟨.unlink, temporary⟩, ⟨.rename, temporary⟩]

namespace ObjectStore

variable {s : ObjectStore} {filename : String} {a : Access}

/-- To read an object is to open its file; what the file is like makes no further access. -/
private theorem mem_accesses_readTraced :
    a ∈ (s.readTraced filename).accesses ↔
      ∃ slot, Slot.ofName? filename = some slot ∧ a = ⟨.read, s.dir.slotPath slot⟩ := by
  rw [readTraced]
  cases Slot.ofName? filename with
  | none => simp
  | some slot =>
    dsimp only
    rw [Traced.accesses_bind, Disk.accesses_openTraced, Disk.value_openTraced]
    rcases s.disk.stat (s.dir.slotPath slot) with e | file | mode
    · simp
    · dsimp only
      cases file.cutAtZero? <;> simp
    · simp

private theorem accesses_objectTraced : (s.objectTraced filename).accesses =
    (s.readTraced filename).accesses := by
  rw [objectTraced, Traced.accesses_bind]
  rcases (s.readTraced filename).value with e | ⟨header, body⟩
  · simp
  · dsimp only
    cases Labels.ofHeader header <;> simp

private theorem accesses_bodyTraced : (s.bodyTraced filename).accesses =
    (s.readTraced filename).accesses := by
  rw [bodyTraced, Traced.accesses_bind, Traced.accesses_pure, List.append_nil]

/-- To sum up sizes is to ask for files of some of the slots, one after the other. -/
private theorem exists_of_mem_accesses_usageTraced {slots : List Nat} {total : Nat}
    (ha : a ∈ (s.usageTraced slots total).accesses) :
    ∃ slot ∈ slots, a = ⟨.stat, s.dir.slotPath slot⟩ := by
  induction slots generalizing total with
  | nil => cases ha
  | cons slot slots ih =>
    rw [usageTraced, Traced.accesses_bind, Disk.accesses_statTraced, Disk.value_statTraced,
      List.mem_append, List.mem_singleton] at ha
    obtain rfl | hrest := ha
    · exact ⟨slot, List.mem_cons_self, rfl⟩
    · have hlater : ∀ {total}, a ∈ (s.usageTraced slots total).accesses →
          ∃ k ∈ slot :: slots, a = ⟨.stat, s.dir.slotPath k⟩ := fun h => by
        obtain ⟨k, hk, rfl⟩ := ih h
        exact ⟨k, List.mem_cons_of_mem slot hk, rfl⟩
      cases hstat : s.disk.stat (s.dir.slotPath slot) with
      | ok node =>
        rw [hstat] at hrest
        exact hlater hrest
      | error e =>
        rw [hstat] at hrest
        cases e with
        | notFound => exact hlater hrest
        | _ => cases hrest

/-- To store an object is to make, move and perhaps take away the temporary file of the free
slot. -/
private theorem exists_of_mem_accesses_saveTraced {responses : List Response} {labels : Labels}
    {data : Bytes} (ha : a ∈ (s.saveTraced responses labels data).accesses) :
    ∃ slot, s.dir.freeSlot? = some slot ∧
      (a.op = .read ∨ a.op = .rename ∨ a.op = .unlink) ∧ a.path = s.dir.temporaryPath slot := by
  rw [saveTraced] at ha
  cases hheader : labels.header with
  | error e =>
    rw [hheader] at ha
    cases ha
  | ok header =>
    rw [hheader] at ha
    dsimp only at ha
    cases hfree : s.dir.freeSlot? with
    | none =>
      rw [hfree] at ha
      cases ha
    | some slot =>
      rw [hfree] at ha
      dsimp only at ha
      rw [Traced.accesses_bind, List.mem_append] at ha
      refine ⟨slot, rfl, ?_⟩
      obtain hplacement | htidying := ha
      · have hmem := Disk.mem_accesses_performTraced hplacement
        have hsome : a = ⟨.read, s.dir.temporaryPath slot⟩ ∨
            a = ⟨.rename, s.dir.temporaryPath slot⟩ := by
          simpa [ObjectDir.placement, FileOperation.accesses] using hmem
        obtain rfl | rfl := hsome
        · exact ⟨.inl rfl, rfl⟩
        · exact ⟨.inr (.inl rfl), rfl⟩
      · generalize (s.disk.performTraced (s.dir.placement slot header data) responses).value =
          performed at htidying
        obtain ⟨disk, e | _⟩ := performed
        · have hunlink : a = ⟨.unlink, s.dir.temporaryPath slot⟩ := by simpa using htidying
          rw [hunlink]
          exact ⟨.inr (.inr rfl), rfl⟩
        · cases htidying

/-- To delete an object is to take its file away. -/
private theorem mem_accesses_removeTraced :
    a ∈ (s.removeTraced filename).accesses ↔
      ∃ slot, Slot.ofName? filename = some slot ∧ a = ⟨.unlink, s.dir.slotPath slot⟩ := by
  rw [removeTraced]
  cases Slot.ofName? filename with
  | none => simp
  | some slot =>
    dsimp only
    rw [Traced.accesses_bind, Disk.accesses_removeTraced, Disk.value_removeTraced]
    rcases s.disk.removeFile (s.dir.slotPath slot) with e | disk
    · cases e <;> simp
    · simp

end ObjectStore

namespace StoreCall

/-- A call reaches a slot of a store: it may touch the files of the slot. -/
def Reaches (s : ObjectStore) (slot : Nat) : StoreCall → Prop
  | save _ _ => s.dir.freeSlot? = some slot
  | remove name | load name | loadBody name => Slot.ofName? name = some slot
  | usage => slot ∈ s.dir.slots
  | list | count | rescan => False

/-- A call touches the files of slots that it reaches, and no others. -/
theorem exists_of_mem_accesses {s : ObjectStore} {responses : List Response} {call : StoreCall}
    {a : Access} (ha : a ∈ (call.traced s responses).accesses) :
    ∃ slot, call.Reaches s slot ∧ a ∈ s.dir.slotAccesses slot := by
  cases call with
  | save labels data =>
    rw [traced, Traced.accesses_bind, Traced.accesses_pure, List.append_nil] at ha
    obtain ⟨slot, hfree, hop, hpath⟩ := ObjectStore.exists_of_mem_accesses_saveTraced ha
    refine ⟨slot, hfree, ?_⟩
    obtain ⟨op, path⟩ := a
    subst hpath
    rcases hop with rfl | rfl | rfl <;> simp [ObjectDir.slotAccesses]
  | remove name =>
    rw [traced, Traced.accesses_bind, Traced.accesses_pure, List.append_nil] at ha
    obtain ⟨slot, hname, rfl⟩ := ObjectStore.mem_accesses_removeTraced.mp ha
    exact ⟨slot, hname, by simp [ObjectDir.slotAccesses]⟩
  | load name =>
    rw [traced, Traced.accesses_bind, Traced.accesses_pure, List.append_nil,
      ObjectStore.accesses_objectTraced] at ha
    obtain ⟨slot, hname, rfl⟩ := ObjectStore.mem_accesses_readTraced.mp ha
    exact ⟨slot, hname, by simp [ObjectDir.slotAccesses]⟩
  | loadBody name =>
    rw [traced, Traced.accesses_bind, Traced.accesses_pure, List.append_nil,
      ObjectStore.accesses_bodyTraced] at ha
    obtain ⟨slot, hname, rfl⟩ := ObjectStore.mem_accesses_readTraced.mp ha
    exact ⟨slot, hname, by simp [ObjectDir.slotAccesses]⟩
  | usage =>
    rw [traced, Traced.accesses_bind, Traced.accesses_pure, List.append_nil] at ha
    obtain ⟨slot, hslot, rfl⟩ := ObjectStore.exists_of_mem_accesses_usageTraced ha
    exact ⟨slot, hslot, by simp [ObjectDir.slotAccesses]⟩
  | list => cases ha
  | count => cases ha
  | rescan => cases ha

/-- Who asks for the body under the name of a slot has the file of the slot opened. -/
theorem read_mem_accesses_loadBody (s : ObjectStore) {slot : Nat} (hlt : slot < Slot.bound) :
    ⟨.read, s.dir.slotPath slot⟩ ∈ ((loadBody (Slot.name slot)).traced s []).accesses := by
  rw [traced, Traced.accesses_bind, Traced.accesses_pure, List.append_nil,
    ObjectStore.accesses_bodyTraced]
  exact ObjectStore.mem_accesses_readTraced.mpr
    ⟨slot, Slot.ofName?_eq_some_iff.mpr ⟨rfl, hlt⟩, rfl⟩

end StoreCall

end BlobCache
