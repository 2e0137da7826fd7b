import BlobCache.Action
import BlobCache.Allowlist
import BlobCache.Bytes
import BlobCache.Labels.Basic

/-!
# Backends

What a cache needs from the place that keeps its objects. Every operation may change the state of
the backend, and every one may fail; `FaultyStore` is a backend that fails on demand.
-/

namespace BlobCache

/-- A stored object: its labels and its body. -/
structure StoredObject where
  /-- The labels. -/
  labels : Labels
  /-- The body. -/
  body : Bytes
  deriving DecidableEq, Repr

/-- A place that keeps labeled objects under file names. -/
class Backend (β : Type) where
  /-- Stores an object under a fresh name, and gives the name. -/
  save : Labels → Bytes → Action β String
  /-- The names of the stored objects. -/
  list : Action β (List String)
  /-- The object under a name. -/
  load : String → Action β StoredObject
  /-- The body of the object under a name, for callers that know the labels. -/
  loadBody : String → Action β Bytes := fun name => StoredObject.body <$> load name
  /-- Deletes the object under a name. -/
  remove : String → Action β Unit
  /-- Adds the rules for all file operations of the backend to an allowlist. -/
  register : Action (β × Allowlist) Unit

/-! ### Failing on demand -/

/-- The errors with which the operations of a backend shall fail. -/
structure Faults where
  save : Option CacheError := none
  list : Option CacheError := none
  load : Option CacheError := none
  remove : Option CacheError := none
  register : Option CacheError := none
  deriving DecidableEq, Repr

/-- A backend in which some operations fail before they reach the store behind it. It has no way
of its own to a body without the labels. -/
structure FaultyStore (β : Type) where
  /-- The store behind it. -/
  store : β
  /-- What fails. -/
  faults : Faults

namespace FaultyStore

variable {β α : Type}

/-- Runs an action of the store behind, unless it shall fail. -/
def unlessFaulty (fault : Faults → Option CacheError) (x : Action β α) :
    Action (FaultyStore β) α := do
  match fault (← Action.get).faults with
  | some e => Action.fail e
  | none => x.zoom store fun b s => { s with store := b }

instance [Backend β] : Backend (FaultyStore β) where
  save labels data := unlessFaulty (·.save) (Backend.save labels data)
  list := unlessFaulty (·.list) Backend.list
  load name := unlessFaulty (·.load) (Backend.load name)
  remove name := unlessFaulty (·.remove) (Backend.remove name)
  register := do
    match (← Action.get).1.faults.register with
    | some e => Action.fail e
    | none =>
      Backend.register.zoom (fun (s, rules) => (s.store, rules))
        fun (b, rules) (s, _) => ({ s with store := b }, rules)

end FaultyStore

end BlobCache
