import BlobCache.Proofs.Cache.Opening

/-!
# Consistency of a cache

What the list, the arena, the owners, the counts and the idle stamps of a cache say about each other
(`Cache.Consistent`). Every cache that a run can reach is consistent, whatever the backend refuses
on the way, and for this reason no sweep ever finds anything wrong (`consistent_after`).

Consistency is not kept at every step inside a call: a purge takes entries off the list before it
detaches them, so that in between some entries are owned and not listed. Nor does it say why a new
entry comes under an identifier of its own. The inductive invariant is therefore `Cache.Sound`, of
which this is the part that a look at the cache between two calls can check.
-/

namespace BlobCache.Cache

variable {β : Type}

/-- The parts of a cache agree with each other. -/
structure Consistent (c : Cache β) : Prop where
  /-- No entry is listed twice. -/
  nodup : c.members.Nodup
  /-- A listed entry is there, belongs to the cache and has a reference. -/
  listed : ∀ id ∈ c.members,
    ∃ e, c.get? id = some e ∧ e.owner = some c.id ∧ 1 ≤ e.references.count
  /-- An entry with an owner is listed, and the cache is its owner. -/
  owned : ∀ id e owner, c.get? id = some e → e.owner = some owner →
    id ∈ c.members ∧ owner = c.id
  /-- An entry without an owner has a reference. -/
  detached : ∀ id e, c.get? id = some e → e.owner = none → 1 ≤ e.references.count
  /-- An idle entry is attached and mapped, and nobody but the cache holds it. -/
  idle : ∀ id e, c.get? id = some e → e.idleSince.isSome →
    e.isAttached ∧ e.references.count = 1 ∧ e.isMapped

/-- No sweep that could be made now would complain. -/
structure SweptClean [Backend β] (c : Cache β) : Prop where
  /-- Unmapping idle bodies finds nothing wrong. -/
  unmapIdle : ∀ cutoff, ∃ r, (unmapIdle cutoff c).result = .ok r ∧ r.violations = 0
  /-- Deleting retired entries finds nothing wrong, with force or without. -/
  purge : ∀ force, ∃ r, (purge force c).result = .ok r ∧ r.violations = 0
  /-- Doing both finds nothing wrong, whenever it is done. -/
  sweep : ∀ {now maxIdle both}, sweep? now maxIdle = some both →
    ∃ r, (both c).result = .ok r ∧ r.violations = 0

namespace Sound

variable {ledger : Ledger} {c : Cache β}

/-- A sound cache is consistent. Between two calls nothing is pending, so that a cache owns exactly
the entries that it lists (`Sound.mem_of_isAttached`, `Sound.exists_of_listed`). -/
theorem consistent (h : c.Sound ledger []) : c.Consistent where
  nodup := h.nodup
  listed _ hm := h.exists_of_listed hm
  owned id e owner he ho := by
    exact ⟨h.mem_of_isAttached he (Entry.isAttached_of_owner ho), h.owner_eq he ho⟩
  detached _ _ he _ := h.references_pos he
  idle _ _ he hi := h.idle he hi

/-- No sweep complains about a sound cache. Each entry that a sweep treats is listed or pending, and
of these soundness says what the checks of the sweep ask. -/
theorem sweptClean [Backend β] (h : c.Sound ledger []) : c.SweptClean where
  unmapIdle cutoff := (h.unmapIdle cutoff).1
  purge force := (h.purge force).1
  sweep hb := (h.sweep hb).1

end Sound

variable [Backend β]

/-- **Consistency.** Every cache that a run can reach is consistent, and no sweep of it complains,
whatever calls fail on the way and with whatever identifiers they are made. Consistency alone is not
inductive; it is read off soundness at the end of the run, which every call keeps (`Sound.run`,
`sound_after`). -/
theorem consistent_after {id : CacheId} {backend : β} {hint : Nat}
    (hopen : (openOver id backend hint).result = .ok ()) (calls : List Call) :
    ((openOver id backend hint).state.after calls).Consistent ∧
      ((openOver id backend hint).state.after calls).SweptClean := by
  have h := sound_after hopen calls
  exact ⟨h.consistent, h.sweptClean⟩

/-- A directory with one object on a disk that refuses to delete anything. -/
def stubbornStore : FaultyStore ObjectStore where
  store :=
    { dir := { path := ⟨"/o"⟩, limit := 2, slots := SlotSet.empty.insert 0 }
      disk := { nodes := [([], .folder 0), (["o"], .folder 0), (["o", "0"], .file [0, 7])] } }
  faults := { remove := some (.integrity "read-only") }

/-- The loaded object is acquired, retired and purged by force, under a stale identifier too. -/
theorem consistent_after_refusals :
    (openOver ⟨1⟩ stubbornStore 2).result = .ok () ∧
      let c := (openOver ⟨1⟩ stubbornStore 2).state.after
        [.acquire ⟨0, 0⟩, .retire ⟨0, 0⟩, .purge true, .release .epoch ⟨0, 0⟩, .acquire ⟨0, 7⟩]
      c.Consistent ∧ c.SweptClean := by
  have hopen : (openOver ⟨1⟩ stubbornStore 2).result = .ok () := by rfl
  exact ⟨hopen, consistent_after hopen _⟩

end BlobCache.Cache
