import BlobCache.Backend.Basic
import BlobCache.Cache.Entry

/-!
# Caches and lookup

A cache lists the objects of a backend as entries, in the order in which they came. Lookups go
through the listed entries: `find?` and `findAll` pass over those that wait for their deletion,
and `narrow` filters any list of identifiers without regard to that. No lookup changes the cache.
-/

namespace BlobCache

/-- Entries for the objects of a backend. -/
structure Cache (β : Type) where
  /-- The identity of the cache. -/
  id : CacheId
  /-- Where the objects are. -/
  backend : β
  /-- All entries, listed or not. -/
  arena : Arena Entry := {}
  /-- The listed entries, oldest first. -/
  members : List EntryId := []
  /-- How many objects the cache is meant for. -/
  capacityHint : Nat
  /-- Whether the cache was torn down. -/
  closed : Bool := false

namespace Cache

variable {β α : Type}

/-- The entry that an identifier leads to, listed or not. -/
def get? (c : Cache β) (id : EntryId) : Option Entry :=
  c.arena.get? id

/-- Number of listed entries, those that wait for their deletion included. -/
def size (c : Cache β) : Nat :=
  c.members.length

/-! ### Lookup -/

/-- The listed entries that do not wait for their deletion. -/
def current (c : Cache β) : List (EntryId × Entry) :=
  c.members.filterMap fun id =>
    ((c.get? id).filter (!·.retired)).map fun e => (id, e)

/-- The first current entry with the label. -/
def find? (c : Cache β) (key value : String) : Option EntryId :=
  (c.current.find? (·.2.labels.hasLabel key value)).map (·.1)

/-- The current entries with the label; without a key, all of them. -/
def findAll (c : Cache β) (key : Option String) (value : String) : List EntryId :=
  (c.current.filter fun (_, e) => key.all (e.labels.hasLabel · value)).map (·.1)

/-- The identifiers that lead to entries with the label; without a key, all identifiers. -/
def narrow (c : Cache β) (ids : List EntryId) (key : Option String) (value : String) :
    List EntryId :=
  match key with
  | none => ids
  | some key => ids.filter fun id => (c.get? id).any (·.labels.hasLabel key value)

/-- The value of a label of an entry. -/
def label? (c : Cache β) (id : EntryId) (key : String) : Option String :=
  (c.get? id).bind (·.labels.value? key)

/-! ### Weak references -/

/-- A weak reference to an entry. -/
def weak? (c : Cache β) (id : EntryId) : Option WeakEntry :=
  if c.arena.contains id then some ⟨c.id, id⟩ else none

/-- The entry of a weak reference, if this cache still has it. -/
def resolve? (c : Cache β) (w : WeakEntry) : Option EntryId :=
  if w.cache = c.id ∧ c.arena.contains w.id then some w.id else none

/-! ### Steps that the operations share -/

/-- Changes the entry that an identifier leads to. -/
def updateEntry (id : EntryId) (f : Entry → Entry) : Action (Cache β) Unit :=
  Action.modify fun c => { c with arena := c.arena.update id f }

/-- Lists a new entry behind the others. -/
def enlist (e : Entry) : Action (Cache β) EntryId := do
  let c ← Action.get
  let (id, arena) := c.arena.insert e
  Action.set { c with arena, members := c.members ++ [id] }
  return id

/-- Runs an action of the backend. -/
def onBackend (x : Action β α) : Action (Cache β) α :=
  x.zoom backend fun b c => { c with backend := b }

/-- The entry that an identifier leads to. Leading nowhere breaks the contract of the operation
named by `operation`. -/
def live (operation : String) (id : EntryId) : Action (Cache β) Entry := do
  match (← Action.get).get? id with
  | some e => return e
  | none => Action.violation s!"{operation} on freed entry {id.text}"

/-- Permits the file operations of the backend. -/
def register [Backend β] : Action (Cache β × Allowlist) Unit :=
  Backend.register.zoom (fun (c, rules) => (c.backend, rules))
    fun (b, rules) (c, _) => ({ c with backend := b }, rules)

end Cache

end BlobCache
