import BlobCache.Cache.Sweep
import BlobCache.ObjectDir.Basic

/-!
# Opening and closing caches

A cache that is opened lists the objects that its backend has, passing over those that cannot be
read; only their labels are kept. A cache that is closed deletes its retired entries, held or not,
and gives up the others. Closing is done once: a second time changes nothing. A cache that cannot
be opened is closed again.
-/

namespace BlobCache.Cache

variable {β : Type} [Backend β]

/-- Takes every entry off the list; retired ones are deleted. -/
def clear : Action (Cache β) Unit := do
  let _ ← purge true
  let members := (← Action.get).members
  Action.modify fun c => { c with members := [] }
  members.forM fun id => do
    let _ ← (letGo id).attempt
    return ()

/-- Tears the cache down. -/
def close : Action (Cache β) Unit := do
  let c ← Action.get
  if c.closed then return ()
  else
    clear
    Action.modify fun c => { c with closed := true }
    Action.log .info s!"Closed {c.id.text}"

/-- Lists the object under a name, with one reference for the cache; passes over one that cannot be
read. -/
def enroll (filename : String) : Action (Cache β) Unit := do
  match ← (onBackend (Backend.load filename)).attempt with
  | .error e => Action.log .warn s!"Unable to map file {filename} from cache: {e.message}"
  | .ok object =>
    let owner := (← Action.get).id
    let _ ← enlist { filename, labels := object.labels, references := .one, owner := some owner }

/-- Lists the objects of the backend. -/
def populate : Action (Cache β) Unit := do
  let names ← onBackend Backend.list
  names.forM enroll
  let c ← Action.get
  Action.log .info s!"Loaded {c.size} entries into {c.id.text}"

/-- A cache over a backend, before it lists anything. -/
def fresh (id : CacheId) (backend : β) (capacityHint : Nat) : Cache β :=
  { id, backend, capacityHint }

/-- Opens a cache over a backend. -/
def openOver (id : CacheId) (backend : β) (capacityHint : Nat) : Outcome (Cache β) Unit :=
  (populate.onFailure close) (fresh id backend capacityHint)

/-- Opens a cache over the object directory at a path. The disk goes with the cache. -/
def openAt (id : CacheId) (path : Path) (capacityHint : Nat) :
    Action Disk (Cache ObjectStore) := do
  let store ← ObjectStore.openAt path capacityHint
  let o := openOver id store capacityHint
  fun _ => ⟨o.result.map fun _ => o.state, o.state.backend.disk, o.log⟩

end BlobCache.Cache
