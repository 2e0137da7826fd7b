import BlobCache.Bytes
import BlobCache.Cache.Arena
import BlobCache.Instant
import BlobCache.Labels.Basic
import BlobCache.RefCount

/-!
# Entries

What a cache knows of one stored object, and the identity of the cache itself. An entry is
attached while its cache lists it. It starts without its body, which is mapped when someone asks
for it; a mapped body that nobody but the cache refers to is idle from some moment on.
-/

namespace BlobCache

/-- The identity of a cache; no two caches of a process share one. -/
structure CacheId where
  /-- The number of the cache. -/
  number : Nat
  deriving DecidableEq, Repr

/-- The text of an identity. -/
def CacheId.text (id : CacheId) : String :=
  s!"cache-{id.number}"

/-- What a cache knows of a stored object. -/
structure Entry where
  /-- The object's name in the backend. -/
  filename : String
  /-- The object's labels. -/
  labels : Labels
  /-- How many references there are, the cache's own included. -/
  references : RefCount
  /-- Whether the object is to be deleted once only the cache refers to it. -/
  retired : Bool := false
  /-- Whether the body is to be unmapped as soon as only the cache refers to the entry. -/
  eager : Bool := false
  /-- The cache that lists the entry. -/
  owner : Option CacheId
  /-- Since when the body is mapped for nobody. -/
  idleSince : Option Instant := none
  /-- The body, while it is mapped. -/
  mapping : Option Bytes := none
  deriving DecidableEq, Repr

namespace Entry

/-- Whether a cache lists the entry. -/
def isAttached (e : Entry) : Bool :=
  e.owner.isSome

/-- Whether the body is mapped. -/
def isMapped (e : Entry) : Bool :=
  e.mapping.isSome

/-- Whether the entry has been idle since `cutoff` or longer. -/
def isIdleAt (e : Entry) (cutoff : Instant) : Bool :=
  match e.idleSince with
  | some since => decide (since ≤ cutoff)
  | none => false

/-- The entry without its body. -/
def unmapped (e : Entry) : Entry :=
  { e with mapping := none, idleSince := none }

/-- The entry when no cache lists it any more. -/
def detached (e : Entry) : Entry :=
  { e with owner := none }

end Entry

/-- A reference to an entry that keeps nothing alive. -/
structure WeakEntry where
  /-- The cache that the entry belongs to. -/
  cache : CacheId
  /-- The entry. -/
  id : EntryId
  deriving DecidableEq, Repr

end BlobCache
