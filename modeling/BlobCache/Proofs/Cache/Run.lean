import BlobCache.Cache.Open

/-!
# Runs of a cache

A user of a cache opens it and then makes calls, in any order, with any identifiers and at any
moments. What a call does depends on the cache alone, so a run is the list of its calls, and
`Cache.after` is the cache at the end of it. A call may fail; the cache goes on from the state that
the failure leaves.
-/

namespace BlobCache

/-- A call that may change a cache. -/
inductive Call
  /-- Stores an object. -/
  | add (labels : Labels) (data : Bytes)
  /-- Takes a reference. -/
  | acquire (id : EntryId)
  /-- Gives a reference back, at some moment. -/
  | release (now : Instant) (id : EntryId)
  /-- Marks an entry for deletion. -/
  | retire (id : EntryId)
  /-- Marks an entry whose body is not to be kept for later. -/
  | markEager (id : EntryId)
  /-- Asks for a body. -/
  | body (id : EntryId)
  /-- Unmaps idle bodies. -/
  | unmapIdle (cutoff : Instant)
  /-- Deletes retired entries. -/
  | purge (force : Bool)
  /-- Does both, at some moment. -/
  | sweep (now : Instant) (maxIdle : Duration)
  deriving DecidableEq, Repr

/-- What a call answers if it does not fail. -/
inductive Answer
  /-- The new entry. -/
  | entry (id : EntryId)
  /-- The number of references. -/
  | count (n : Nat)
  /-- What is left of an entry. -/
  | left (liveness : Liveness)
  /-- A body. -/
  | body (data : Bytes)
  /-- What a sweep did. -/
  | report (r : SweepReport)
  /-- Nothing. -/
  | done
  /-- A sweep reaches back to a moment that is not representable, and is not made. -/
  | beyondRange
  deriving DecidableEq, Repr

variable {β : Type} [Backend β]

/-- Makes a call. -/
def Call.run : Call → Action (Cache β) Answer
  | add labels data => Answer.entry <$> Cache.add labels data
  | acquire id => Answer.count <$> Cache.acquire id
  | release now id => Answer.left <$> Cache.release now id
  | retire id => (fun _ => Answer.done) <$> Cache.retire id
  | markEager id => (fun _ => Answer.done) <$> Cache.markEager id
  | body id => Answer.body <$> Cache.body id
  | unmapIdle cutoff => Answer.report <$> Cache.unmapIdle cutoff
  | purge force => Answer.report <$> Cache.purge force
  | sweep now maxIdle =>
    match Cache.sweep? now maxIdle with
    | some both => Answer.report <$> both
    | none => pure .beyondRange

/-- The cache after some calls. -/
def Cache.after (c : Cache β) : List Call → Cache β
  | [] => c
  | call :: calls => (call.run c).state.after calls

/-- A run is made part by part. -/
theorem Cache.after_append (c : Cache β) (earlier later : List Call) :
    c.after (earlier ++ later) = (c.after earlier).after later := by
  induction earlier generalizing c with
  | nil => rfl
  | cons call earlier ih => exact ih _

end BlobCache
