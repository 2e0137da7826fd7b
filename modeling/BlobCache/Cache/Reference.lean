import BlobCache.Cache.Basic

/-!
# Adding entries and holding them

The cache holds one reference to every entry that it lists. `add` gives the caller a second one,
`acquire` takes further ones, and `release` gives one back. The cache's own reference is not the
caller's to give: `release` refuses to take the last one from a listed entry. An entry without
references is freed.

`body` maps the body of an entry and keeps it mapped; which moment starts its idle time is for
`release` to say.
-/

namespace BlobCache.Cache

variable {β : Type}

/-! ### Adding -/

/-- The error that a failure to store is reported as. -/
def storeError : CacheError → CacheError
  | .writeFailed reason cause => .writeFailed reason cause
  | .invalidArgument reason => .invalidArgument reason
  | e => .writeFailed e.message none

/-- Stores an object and lists it, with one reference for the cache and one for the caller. -/
def add [Backend β] (labels : Labels) (data : Bytes) : Action (Cache β) EntryId := do
  let filename ← (onBackend (Backend.save labels data)).mapError storeError
  let owner := (← Action.get).id
  let id ← enlist { filename, labels, references := .two, owner := some owner }
  Action.log .debug
    s!"Added entry {id.text} ({data.length} bytes, labels {labels.text})"
  return id

/-! ### References -/

/-- Takes a reference to an entry, which ends its idle time. -/
def acquire (id : EntryId) : Action (Cache β) Nat := do
  let e ← live "incref" id
  match e.references.increment with
  | .error refusal => Action.violation refusal.message
  | .ok references =>
    updateEntry id fun e => { e with references, idleSince := none }
    return references.count

/-- Takes one reference off an entry, which is freed with its last. -/
def dropReference (id : EntryId) (e : Entry) : Action (Cache β) Liveness := do
  match e.references.decrement with
  | .error refusal => Action.violation refusal.message
  | .ok references =>
    if references.count = 0 then
      Action.modify fun c => { c with arena := c.arena.remove id }
      Action.log .debug s!"Freed entry {id.text}"
      return .destroyed
    else
      updateEntry id fun e => { e with references }
      return .alive references.count

/-- Starts the idle time of an entry that only the cache holds any more, if a body is mapped. An
eager entry loses its body instead. -/
def becomeIdle (now : Instant) (id : EntryId) (e : Entry) : Action (Cache β) Unit := do
  if e.isMapped then
    if e.eager then
      updateEntry id Entry.unmapped
      Action.log .debug s!"Released mapping of {id.text}"
    else
      updateEntry id fun e => { e with idleSince := some now }

/-- Gives back a reference to an entry. -/
def release (now : Instant) (id : EntryId) : Action (Cache β) Liveness := do
  let e ← live "decref" id
  if e.references.count = 1 ∧ e.isAttached then
    Action.violation s!"decref would free {id.text} while the cache still holds it"
  else
    let left ← dropReference id e
    if left = .alive 1 ∧ e.isAttached then
      becomeIdle now id e
    return left

/-- Takes an entry off the cache's hands: it is no longer attached, and the cache's reference is
given back. -/
def letGo (id : EntryId) : Action (Cache β) Liveness := do
  updateEntry id Entry.detached
  let e ← live "decref" id
  dropReference id e

/-! ### Marks -/

/-- Marks an entry for deletion. -/
def retire (id : EntryId) : Action (Cache β) Unit := do
  let _ ← live "mark_for_removal" id
  updateEntry id fun e => { e with retired := true }

/-- Has the body of an entry unmapped as soon as only the cache holds the entry. -/
def markEager (id : EntryId) : Action (Cache β) Unit := do
  let _ ← live "mark_for_aggressive_release" id
  updateEntry id fun e => { e with eager := true }

/-! ### Bodies -/

/-- The body of an entry, mapped if it is not mapped yet. An entry that the cache does not list has
no way to its file any more. -/
def body [Backend β] (id : EntryId) : Action (Cache β) Bytes := do
  let e ← live "get_body" id
  match e.mapping with
  | some body => return body
  | none =>
    if e.owner ≠ some (← Action.get).id then
      Action.fail (.notAvailable e.filename "entry is detached from the cache")
    else
      let body ← (onBackend (Backend.loadBody e.filename)).mapError
        fun error => .notAvailable e.filename error.message
      updateEntry id fun e => { e with mapping := some body, idleSince := none }
      Action.log .debug s!"Mapped {id.text} ({body.length} bytes)"
      return body

end BlobCache.Cache
