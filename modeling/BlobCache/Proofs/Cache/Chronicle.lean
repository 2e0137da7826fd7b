import BlobCache.Proofs.Cache.Run

/-!
# Chronicles of bodies

A chronicle has on record what body was put under every identifier: the one given when the entry
was added, or the one that its file had when the cache opened. It also has on record whether the
body was mapped when the entry left the list. Like a ledger it is written beside the run, from the
calls, their answers and the list, and the cache knows nothing of it.
-/

namespace BlobCache

/-- What is on record of one entry. -/
structure Deposit where
  /-- The body that was put there. -/
  body : Bytes := []
  /-- Whether the body was mapped when the entry left the list. -/
  partedMapped : Bool := false
  deriving DecidableEq, Repr

/-- A record for every identifier. -/
abbrev Chronicle := EntryId → Deposit

/-- The body in the file under a name: the bytes after the first zero byte. -/
def ObjectStore.bodyInFile? (s : ObjectStore) (filename : String) : Option Bytes :=
  match s.disk.readFile (s.dir.path.join filename) with
  | .ok file => (file.cutAtZero?).map (·.2)
  | .error _ => none

namespace Chronicle

/-- The chronicle of a cache that just opened: the bodies that are in the files. -/
def opening (c : Cache ObjectStore) : Chronicle := fun id =>
  { body := ((c.get? id).bind fun e => c.backend.bodyInFile? e.filename).getD [] }

/-- The chronicle with another record for one identifier. -/
def write (chronicle : Chronicle) (id : EntryId) (deposit : Deposit) : Chronicle :=
  fun other => if other = id then deposit else chronicle other

/-- The chronicle after entries left the list on the way from `c` to `c'`. -/
def part {β : Type} (chronicle : Chronicle) (c c' : Cache β) : Chronicle := fun id =>
  if id ∈ c.members ∧ id ∉ c'.members then
    { chronicle id with partedMapped := (c.get? id).any (·.isMapped) }
  else chronicle id

/-- The chronicle after a call on `c` with this outcome. -/
def record {β : Type} (chronicle : Chronicle) (call : Call) (c : Cache β)
    (o : Outcome (Cache β) Answer) : Chronicle :=
  match call, o.result with
  | .add _ data, .ok (.entry id) => chronicle.write id { body := data }
  | _, _ => chronicle.part c o.state

/-- The chronicle of a run that begins at `c`. -/
def after {β : Type} [Backend β] (chronicle : Chronicle) (c : Cache β) : List Call → Chronicle
  | [] => chronicle
  | call :: calls => (chronicle.record call c (call.run c)).after (call.run c).state calls

@[simp]
theorem write_self (chronicle : Chronicle) (id : EntryId) (deposit : Deposit) :
    chronicle.write id deposit id = deposit := if_pos rfl

theorem write_of_ne (chronicle : Chronicle) {id other : EntryId} (h : other ≠ id)
    (deposit : Deposit) : chronicle.write id deposit other = chronicle other := if_neg h

/-- What was put under an identifier does not change when entries leave the list. -/
@[simp]
theorem body_part {β : Type} (chronicle : Chronicle) (c c' : Cache β) (id : EntryId) :
    (chronicle.part c c' id).body = (chronicle id).body := by
  rw [part]
  split <;> rfl

/-- Nothing is recorded while the list stays the same. -/
theorem part_of_members_eq {β : Type} (chronicle : Chronicle) {c c' : Cache β}
    (h : c'.members = c.members) : chronicle.part c c' = chronicle := by
  funext id
  rw [part, h, if_neg fun hm => hm.2 hm.1]

/-- Nothing is recorded of entries off the list. -/
theorem part_of_not_mem {β : Type} (chronicle : Chronicle) {c : Cache β} {id : EntryId}
    (h : id ∉ c.members) (c' : Cache β) : chronicle.part c c' id = chronicle id :=
  if_neg fun hm => h hm.1

/-- Whether the body was mapped is recorded when an entry leaves the list. -/
theorem partedMapped_part {β : Type} (chronicle : Chronicle) {c c' : Cache β} {id : EntryId}
    {e : Entry} (hm : id ∈ c.members) (hm' : id ∉ c'.members) (he : c.get? id = some e) :
    (chronicle.part c c' id).partedMapped = e.isMapped := by
  rw [part, if_pos ⟨hm, hm'⟩, he]
  rfl

/-- Calls that add nothing are recorded by who left the list. -/
theorem record_of_ne_add {β : Type} (chronicle : Chronicle) {call : Call}
    (h : ∀ labels data, call ≠ .add labels data) (c : Cache β) (o : Outcome (Cache β) Answer) :
    chronicle.record call c o = chronicle.part c o.state := by
  cases call with
  | add labels data => exact absurd rfl (h labels data)
  | _ => rfl

end Chronicle

end BlobCache
