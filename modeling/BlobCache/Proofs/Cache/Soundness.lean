import BlobCache.Proofs.Cache.Ledger
import BlobCache.Proofs.Cache.Sweep

/-!
# Soundness of a cache

`Cache.Sound` ties the five things that the operations keep in step: the list, the arena, the
owners, the reference counts and the idle stamps. The counts are compared with a `Ledger`, which
makes the statement inductive: what the cache holds of an entry and what its user holds add up to
the count, so that taking away the one leaves exactly the other.

A purge takes entries off the list first and detaches them one by one afterwards. In between they
are owned and not listed; `Sound` has them in a list of their own, `pending`, which is empty between
two calls.

The lemmas are about the changes that operations are made of: `Sound.change`,
`Sound.free_of_mem_iff`, `Sound.enlisted`, `Sound.unlist` and `Sound.letGo`. `Sound.run` collects
them for every call, and `sound_after` for every run.
-/

namespace BlobCache.Cache

variable {β : Type}

/-- A cache is sound, with some entries pending that are owned and no longer listed, if its
bookkeeping is consistent and agrees with the ledger. -/
structure Sound (ledger : Ledger) (pending : List EntryId) (c : Cache β) : Prop where
  /-- The free list names the vacant cells. -/
  arena : c.arena.Sound
  /-- No entry is listed or pending twice. -/
  nodup : (pending ++ c.members).Nodup
  /-- The listed and the pending entries are the attached ones. -/
  mem_iff : ∀ id, id ∈ pending ++ c.members ↔ ∃ e, c.get? id = some e ∧ e.isAttached
  /-- No entry is attached to another cache. -/
  owner_eq : ∀ {id e owner}, c.get? id = some e → e.owner = some owner → owner = c.id
  /-- The cache's reference and the user's are all there are. -/
  references_eq : ∀ {id e}, c.get? id = some e →
    (e.references.count : Int) = (if e.isAttached then 1 else 0) + (ledger id).share
  /-- No entry is without references. -/
  references_pos : ∀ {id e}, c.get? id = some e → 1 ≤ e.references.count
  /-- Nothing is left to give back of an entry that is gone. -/
  settled : ∀ {id}, c.get? id = none → (ledger id).share = 0
  /-- Idle are only mapped entries that nobody but the cache holds. -/
  idle : ∀ {id e}, c.get? id = some e → e.idleSince.isSome →
    e.isAttached ∧ e.references.count = 1 ∧ e.isMapped
  /-- The cache was not torn down. -/
  running : c.closed = false

namespace Sound

variable {ledger ledger' : Ledger} {pending pending' : List EntryId} {c : Cache β} {id : EntryId}
  {e : Entry}

/-! ### What a sound cache is like -/

/-- An attached entry is listed or pending. -/
theorem mem_of_isAttached (h : c.Sound ledger pending) (he : c.get? id = some e)
    (ha : e.isAttached) : id ∈ pending ++ c.members :=
  (h.mem_iff id).mpr ⟨e, he, ha⟩

/-- A listed or pending entry is there, and it is this cache's. -/
theorem exists_of_mem (h : c.Sound ledger pending) (hm : id ∈ pending ++ c.members) :
    ∃ e, c.get? id = some e ∧ e.owner = some c.id ∧ 1 ≤ e.references.count := by
  obtain ⟨e, he, ha⟩ := (h.mem_iff id).mp hm
  obtain ⟨owner, ho⟩ := Option.isSome_iff_exists.mp ha
  exact ⟨e, he, by rw [ho, h.owner_eq he ho], h.references_pos he⟩

/-- The first pending entry is there, and it is this cache's. -/
theorem exists_of_pending (h : c.Sound ledger (id :: pending)) :
    ∃ e, c.get? id = some e ∧ e.owner = some c.id ∧ 1 ≤ e.references.count :=
  h.exists_of_mem List.mem_cons_self

/-- A listed entry is there, and it is this cache's. -/
theorem exists_of_listed (h : c.Sound ledger pending) (hm : id ∈ c.members) :
    ∃ e, c.get? id = some e ∧ e.owner = some c.id ∧ 1 ≤ e.references.count :=
  h.exists_of_mem (List.mem_append_right pending hm)

/-- Nobody gives back more than they have. -/
theorem share_nonneg (h : c.Sound ledger pending) (id : EntryId) : 0 ≤ (ledger id).share := by
  cases he : c.get? id with
  | none => exact Int.le_of_eq (h.settled he).symm
  | some e =>
    have hcount := h.references_eq he
    have hpos := h.references_pos he
    split at hcount <;> omega

/-- An entry is there as long as the cache or its user holds it. -/
theorem exists_iff (h : c.Sound ledger pending) (id : EntryId) :
    (∃ e, c.get? id = some e) ↔ id ∈ pending ++ c.members ∨ 0 < (ledger id).share := by
  constructor
  · rintro ⟨e, he⟩
    by_cases ha : e.isAttached
    · exact .inl (h.mem_of_isAttached he ha)
    · have hcount := h.references_eq he
      have hpos := h.references_pos he
      -- of an entry off the list, all references are the user's
      rw [if_neg ha] at hcount
      exact .inr (by omega)
  · rintro (hm | hs)
    · obtain ⟨e, he, -⟩ := h.exists_of_mem hm
      exact ⟨e, he⟩
    · cases he : c.get? id with
      | none =>
        have hz := h.settled he
        omega
      | some e => exact ⟨e, rfl⟩

/-! ### One entry changes -/

/-- An entry may change as long as it is listed or pending exactly if it is attached, and its count
follows the ledger. -/
theorem change_of_mem_iff (h : c.Sound ledger pending) (he : c.get? id = some e)
    {f : Entry → Entry} (hnodup : (pending' ++ c.members).Nodup)
    (hmem : ∀ other, other ∈ pending' ++ c.members ↔
      if other = id then (f e).isAttached = true else other ∈ pending ++ c.members)
    (hother : ∀ other, other ≠ id → ledger' other = ledger other)
    (howner : (f e).owner = e.owner ∨ (f e).owner = none)
    (hcount : ((f e).references.count : Int) =
      (if (f e).isAttached then 1 else 0) + (ledger' id).share)
    (hpos : 1 ≤ (f e).references.count)
    (hidle : (f e).idleSince.isSome →
      (f e).isAttached ∧ (f e).references.count = 1 ∧ (f e).isMapped) :
    (c.change id f).Sound ledger' pending' := by
  have hself := get?_change_self he f
  constructor
  case arena => exact h.arena.update id f
  case nodup => exact hnodup
  case running => exact h.running
  case mem_iff =>
    intro other
    rw [change_members, hmem]
    by_cases hn : other = id
    · subst hn
      simp [hself]
    · rw [if_neg hn, h.mem_iff, get?_change, if_neg hn]
  case owner_eq =>
    intro other e' owner he' ho
    obtain ⟨rfl, rfl⟩ | ⟨-, he'⟩ := eq_or_of_get?_change he he'
    · rcases howner with howner | howner
      · exact h.owner_eq he (howner ▸ ho)
      · rw [howner] at ho
        cases ho
    · exact h.owner_eq he' ho
  case references_eq =>
    intro other e' he'
    obtain ⟨rfl, rfl⟩ | ⟨hn, he'⟩ := eq_or_of_get?_change he he'
    · exact hcount
    · rw [hother other hn]
      exact h.references_eq he'
  case references_pos =>
    intro other e' he'
    obtain ⟨rfl, rfl⟩ | ⟨-, he'⟩ := eq_or_of_get?_change he he'
    · exact hpos
    · exact h.references_pos he'
  case settled =>
    intro other hnone
    have hnone' := get?_change_eq_none.mp hnone
    have hn : other ≠ id := by
      rintro rfl
      rw [he] at hnone'
      cases hnone'
    rw [hother other hn]
    exact h.settled hnone'
  case idle =>
    intro other e' he' hi
    obtain ⟨rfl, rfl⟩ | ⟨-, he'⟩ := eq_or_of_get?_change he he'
    · exact hidle hi
    · exact h.idle he' hi

/-- An entry may change as long as its owner stays and its count follows the ledger. -/
theorem change (h : c.Sound ledger pending) (he : c.get? id = some e) {f : Entry → Entry}
    (hother : ∀ other, other ≠ id → ledger' other = ledger other)
    (howner : (f e).owner = e.owner)
    (hcount : ((f e).references.count : Int) =
      (if e.isAttached then 1 else 0) + (ledger' id).share)
    (hpos : 1 ≤ (f e).references.count)
    (hidle : (f e).idleSince.isSome →
      e.isAttached ∧ (f e).references.count = 1 ∧ (f e).isMapped) :
    (c.change id f).Sound ledger' pending := by
  have hattached : (f e).isAttached = e.isAttached := by rw [Entry.isAttached, howner]; rfl
  refine h.change_of_mem_iff he h.nodup (fun other => ?_) hother (.inl howner)
    (hattached ▸ hcount) hpos (hattached ▸ hidle)
  by_cases hn : other = id
  · rw [if_pos hn, hn, h.mem_iff, hattached]
    simp [he]
  · rw [if_neg hn]

/-- An entry may be freed if nothing is left to give back of it and it is neither listed nor pending
from then on. -/
theorem free_of_mem_iff (h : c.Sound ledger pending) (hnodup : (pending' ++ c.members).Nodup)
    (hmem : ∀ other, other ∈ pending' ++ c.members ↔
      other ≠ id ∧ other ∈ pending ++ c.members)
    (hother : ∀ other, other ≠ id → ledger' other = ledger other)
    (hshare : (ledger' id).share = 0) : (c.free id).Sound ledger' pending' := by
  constructor
  case arena => exact h.arena.remove id
  case nodup => exact hnodup
  case running => exact h.running
  case mem_iff =>
    intro other
    rw [free_members, hmem, h.mem_iff]
    by_cases hn : other = id
    · simp [hn, get?_free]
    · simp [hn, get?_free]
  case owner_eq =>
    intro other e' owner he' ho
    exact h.owner_eq (get?_free_eq_some.mp he').2 ho
  case references_eq =>
    intro other e' he'
    obtain ⟨hn, he'⟩ := get?_free_eq_some.mp he'
    rw [hother other hn]
    exact h.references_eq he'
  case references_pos =>
    intro other e' he'
    exact h.references_pos (get?_free_eq_some.mp he').2
  case settled =>
    intro other hnone
    by_cases hn : other = id
    · rw [hn, hshare]
    · rw [hother other hn]
      rw [get?_free, if_neg hn] at hnone
      exact h.settled hnone
  case idle =>
    intro other e' he' hi
    exact h.idle (get?_free_eq_some.mp he').2 hi

/-! ### Entries come -/

/-- A new entry may be listed if its count follows the ledger. -/
theorem enlisted (h : c.Sound ledger pending) {e : Entry} (ho : e.owner = some c.id)
    (hi : e.idleSince = none)
    (hother : ∀ other, other ≠ (c.arena.insert e).1 → ledger' other = ledger other)
    (hcount : (e.references.count : Int) = 1 + (ledger' (c.arena.insert e).1).share)
    (hpos : 1 ≤ e.references.count) : (c.enlisted e).Sound ledger' pending := by
  have hfresh : c.get? (c.arena.insert e).1 = none := h.arena.get?_fst_insert e
  have hnew : (c.arena.insert e).1 ∉ pending ++ c.members := fun hm => by
    obtain ⟨e', he', -⟩ := h.exists_of_mem hm
    rw [hfresh] at he'
    cases he'
  have ha : e.isAttached := Entry.isAttached_of_owner ho
  -- an entry is the new one or was there before
  have hcases : ∀ {other e'}, (c.enlisted e).get? other = some e' →
      (other = (c.arena.insert e).1 ∧ e' = e) ∨
        (other ≠ (c.arena.insert e).1 ∧ c.get? other = some e') := by
    intro other e' he'
    rw [get?_enlisted h.arena] at he'
    by_cases hn : other = (c.arena.insert e).1
    · rw [if_pos hn] at he'
      exact .inl ⟨hn, (Option.some.inj he').symm⟩
    · rw [if_neg hn] at he'
      exact .inr ⟨hn, he'⟩
  constructor
  case arena => exact h.arena.insert e
  case running => exact h.running
  case nodup =>
    change (pending ++ (c.members ++ [(c.arena.insert e).1])).Nodup
    rw [← List.append_assoc, List.nodup_append]
    refine ⟨h.nodup, by simp, fun a ha b hb => ?_⟩
    rintro rfl
    rw [List.mem_singleton] at hb
    exact hnew (hb ▸ ha)
  case mem_iff =>
    intro other
    change other ∈ pending ++ (c.members ++ [(c.arena.insert e).1]) ↔ _
    rw [← List.append_assoc, List.mem_append, List.mem_singleton, h.mem_iff,
      get?_enlisted h.arena]
    by_cases hn : other = (c.arena.insert e).1
    · simp [hn, ha]
    · simp [hn]
  case owner_eq =>
    intro other e' owner he' ho'
    obtain ⟨rfl, rfl⟩ | ⟨-, he'⟩ := hcases he'
    · exact (Option.some.inj (ho.symm.trans ho')).symm
    · exact h.owner_eq he' ho'
  case references_eq =>
    intro other e' he'
    obtain ⟨rfl, rfl⟩ | ⟨hn, he'⟩ := hcases he'
    · rw [if_pos ha]
      exact hcount
    · rw [hother other hn]
      exact h.references_eq he'
  case references_pos =>
    intro other e' he'
    obtain ⟨rfl, rfl⟩ | ⟨-, he'⟩ := hcases he'
    · exact hpos
    · exact h.references_pos he'
  case settled =>
    intro other hnone
    have hn : other ≠ (c.arena.insert e).1 := by
      rintro rfl
      rw [get?_enlisted h.arena, if_pos rfl] at hnone
      cases hnone
    rw [hother other hn]
    rw [get?_enlisted h.arena, if_neg hn] at hnone
    exact h.settled hnone
  case idle =>
    intro other e' he' hi'
    obtain ⟨rfl, rfl⟩ | ⟨-, he'⟩ := hcases he'
    · rw [hi] at hi'
      cases hi'
    · exact h.idle he' hi'

/-- The backend has no part in the bookkeeping. -/
theorem withBackend (h : c.Sound ledger pending) (b : β) :
    (c.withBackend b).Sound ledger pending :=
  ⟨h.arena, h.nodup, h.mem_iff, h.owner_eq, h.references_eq, h.references_pos, h.settled, h.idle,
    h.running⟩

/-! ### Entries go -/

/-- Listed entries may be taken off the list; they are pending from then on. -/
theorem unlist (h : c.Sound ledger []) (p : EntryId → Bool) :
    (c.unlist (c.members.filter p)).Sound ledger (c.members.filter p) := by
  have hnodup : c.members.Nodup := h.nodup
  refine ⟨h.arena, ?_, fun other => ?_, h.owner_eq, h.references_eq, h.references_pos,
    h.settled, h.idle, h.running⟩
  · rw [List.nodup_append]
    refine ⟨hnodup.filter p, hnodup.filter _, fun a ha b hb => ?_⟩
    rintro rfl
    have hnot := (List.mem_filter.mp hb).2
    simp only [Bool.not_eq_true', List.contains_eq_mem, decide_eq_false_iff_not] at hnot
    exact hnot ha
  · -- taking entries off the list moves them to the pending ones
    have hmem : other ∈ c.members.filter p ++ (c.unlist (c.members.filter p)).members ↔
        other ∈ [] ++ c.members := by
      simp only [Cache.unlist, List.mem_append, List.mem_filter, Bool.not_eq_true',
        List.contains_eq_mem, decide_eq_false_iff_not]
      by_cases hp : p other = true
      · simp [hp]
      · simp [hp]
    rw [hmem]
    exact h.mem_iff other

/-- A pending entry may be let go of. -/
theorem letGo (h : c.Sound ledger (id :: pending)) :
    (letGo id c).state.Sound ledger pending := by
  obtain ⟨e, he, ho, hpos⟩ := h.exists_of_pending
  have ha : e.isAttached := Entry.isAttached_of_owner ho
  have hcount := h.references_eq he
  rw [if_pos ha] at hcount
  obtain ⟨hnot, hnodup⟩ := List.nodup_cons.mp (List.cons_append ▸ h.nodup)
  -- the cache's reference is the last one, or the others are the user's
  rcases Nat.eq_or_lt_of_le hpos with h1 | hgt
  · rw [(letGo_last he h1.symm).2]
    refine h.free_of_mem_iff hnodup (fun other => ?_) (fun _ _ => rfl) (by omega)
    by_cases hn : other = id
    · simpa [hn] using hnot
    · simp [hn]
  · obtain ⟨left, hleft, -, hs⟩ := letGo_held he hgt
    rw [hs]
    refine h.change_of_mem_iff he hnodup (fun other => ?_) (fun _ _ => rfl)
      (.inr rfl) ?_ (by change 1 ≤ left.count; omega) fun hi => ?_
    · by_cases hn : other = id
      · simpa [hn, Entry.surrendered, Entry.detached, Entry.isAttached] using hnot
      · simp [hn]
    · change ((left.count : Nat) : Int) = 0 + (ledger id).share
      omega
    · -- an entry that someone else holds is not idle
      have hone := (h.idle he hi).2.1
      omega

/-! ### Sweeps -/

section Sweeps

/-- A listed entry may be unmapped. -/
theorem unmapOne (h : c.Sound ledger []) (hm : id ∈ c.members) (cutoff : Instant) :
    (∃ r, (unmapOne cutoff id c).result = .ok r ∧ r.violations = 0) ∧
      (unmapOne cutoff id c).state.Sound ledger [] ∧
      (unmapOne cutoff id c).state.members = c.members := by
  obtain ⟨e, he, ho, -⟩ := h.exists_of_listed hm
  obtain ⟨-, -, -, hr, hs⟩ | ⟨-, hr, hs⟩ := unmapOne_listed cutoff he ho
  · refine ⟨⟨_, hr, rfl⟩, ?_, by rw [hs, change_members]⟩
    rw [hs]
    have hcount := h.references_eq he
    have hpos := h.references_pos he
    exact h.change he (fun _ _ => rfl) rfl hcount hpos fun hi => nomatch hi
  · rw [hs]
    exact ⟨⟨_, hr, rfl⟩, h, rfl⟩

/-- Idle bodies may be unmapped. -/
theorem unmapIdle (h : c.Sound ledger []) (cutoff : Instant) :
    (∃ r, (unmapIdle cutoff c).result = .ok r ∧ r.violations = 0) ∧
      (unmapIdle cutoff c).state.Sound ledger [] := by
  obtain ⟨r, hr, hv, -, hs⟩ :=
    sweepEach_rule (Cache.unmapOne cutoff)
      (P := fun ids c' => (∀ id ∈ ids, id ∈ c'.members) ∧ c'.Sound ledger [])
      (Q := fun r => r.violations = 0) rfl (fun a b ha hb => by simp [ha, hb])
      (fun id ids c' ⟨hids, hc'⟩ => by
        obtain ⟨⟨r, hr, hv⟩, hs, hm⟩ := hc'.unmapOne (hids id List.mem_cons_self) cutoff
        exact ⟨r, hr, hv, fun i hi => hm ▸ hids i (List.mem_cons_of_mem _ hi), hs⟩)
      c.members ⟨fun _ hi => hi, h⟩
  obtain ⟨hr, hs'⟩ := unmapIdle_apply cutoff hr
  rw [hs']
  exact ⟨⟨r, hr, hv⟩, hs⟩

variable [Backend β]

/-- A pending entry may be discarded. -/
theorem discard (h : c.Sound ledger (id :: pending)) :
    (∃ r, (discard id c).result = .ok r ∧ r.violations = 0) ∧
      (discard id c).state.Sound ledger pending := by
  obtain ⟨e, he, -, hpos⟩ := h.exists_of_pending
  obtain ⟨hr, hs⟩ := discard_listed he hpos
  rw [hs]
  exact ⟨⟨_, hr, rfl⟩, h.letGo.withBackend _⟩

/-- Retired entries may be deleted. -/
theorem purge (h : c.Sound ledger []) (force : Bool) :
    (∃ r, (purge force c).result = .ok r ∧ r.violations = 0) ∧
      (purge force c).state.Sound ledger [] := by
  obtain ⟨removed, hr, hv, hs⟩ :=
    sweepEach_rule Cache.discard (P := fun ids c' => c'.Sound ledger ids)
      (Q := fun r => r.violations = 0) rfl (fun a b ha hb => by simp [ha, hb])
      (fun id ids c' hc' => by
        obtain ⟨⟨r, hr, hv⟩, hs⟩ := hc'.discard
        exact ⟨r, hr, hv, hs⟩)
      (c.doomed force) (h.unlist _)
  obtain ⟨⟨r, hp, hpv⟩, hps⟩ :=
    purge_apply force (fun _ hm => h.exists_of_listed hm) hr rfl
  rw [hps]
  exact ⟨⟨r, hp, hpv.trans hv⟩, hs⟩

/-- A sweep may be made at any moment from which it does not reach back too far. -/
theorem sweep (h : c.Sound ledger []) {now : Instant} {maxIdle : Duration}
    {both : Action (Cache β) SweepReport} (hb : sweep? now maxIdle = some both) :
    (∃ r, (both c).result = .ok r ∧ r.violations = 0) ∧ (both c).state.Sound ledger [] := by
  obtain ⟨cutoff, -, rfl⟩ := Option.map_eq_some_iff.mp hb
  obtain ⟨⟨r, hr, hv⟩, hs⟩ := h.unmapIdle cutoff
  obtain ⟨⟨r', hr', hv'⟩, hs'⟩ := hs.purge false
  rw [Action.bind_apply, hr]
  dsimp only
  rw [Action.bind_apply, hr']
  exact ⟨⟨r + r', rfl, by simp [hv, hv']⟩, hs'⟩

end Sweeps

/-! ### Every call -/

section Run

variable [Backend β]

/-- Adding an entry opens an account with one reference. -/
theorem add (h : c.Sound ledger []) (labels : Labels) (data : Bytes) :
    ((Call.add labels data).run c).state.Sound
      (ledger.record (.add labels data) ((Call.add labels data).run c).result) [] := by
  rw [Call.run, Action.map_apply]
  obtain ⟨error, -, hr, hs⟩ | ⟨filename, -, hr, hs⟩ := add_cases labels data c
  · rw [hr, hs]
    exact h.withBackend _
  · rw [hr, hs]
    change Sound (ledger.write (c.arena.insert (c.stored filename labels)).1 { granted := 1 }) [] _
    refine (h.withBackend _).enlisted rfl rfl (fun _ hn => Ledger.write_of_ne _ hn _) ?_ ?_
    · change (2 : Int) = 1 + (ledger.write (c.arena.insert (c.stored filename labels)).1
        { granted := 1 } (c.arena.insert (c.stored filename labels)).1).share
      rw [Ledger.write_self]
      rfl
    · exact Nat.le_succ 1

/-- Taking a reference adds one to the account. -/
theorem acquire (h : c.Sound ledger []) (id : EntryId) :
    ((Call.acquire id).run c).state.Sound
      (ledger.record (.acquire id) ((Call.acquire id).run c).result) [] := by
  rw [Call.run, Action.map_apply]
  obtain ⟨reason, hr, hs⟩ | ⟨e, references, he, hi, hr, hs⟩ := acquire_cases id c
  · rw [hr, hs]
    exact h
  · have hcount := h.references_eq he
    have hone := RefCount.increment_eq_ok hi
    rw [hr, hs]
    change Sound (ledger.write id (ledger id).take) [] _
    refine h.change he (fun _ hn => Ledger.write_of_ne _ hn _) rfl ?_ ?_ fun hi => nomatch hi
    · rw [Ledger.write_self, Account.share_take]
      change ((references.count : Nat) : Int) = _
      omega
    · change 1 ≤ references.count
      omega

/-- Giving a reference back takes one off the account. -/
theorem release (h : c.Sound ledger []) (now : Instant) (id : EntryId) :
    ((Call.release now id).run c).state.Sound
      (ledger.record (.release now id) ((Call.release now id).run c).result) [] := by
  rw [Call.run, Action.map_apply]
  obtain ⟨reason, hr, hs⟩ | ⟨e, he, h1, hd, hr, hs⟩ | ⟨e, left, he, hleft, hpos, hr, hs⟩ :=
    release_cases now id c
  · rw [hr, hs]
    exact h
  · have hcount := h.references_eq he
    rw [hd, if_neg Bool.false_ne_true] at hcount
    -- what frees an entry is the last reference to one off the list
    have hm : id ∉ [] ++ c.members := fun hm => by
      obtain ⟨e', he', ha⟩ := (h.mem_iff id).mp hm
      rw [he] at he'
      cases he'
      rw [hd] at ha
      cases ha
    rw [hr, hs]
    change Sound (ledger.write id (ledger id).giveBack) [] _
    refine h.free_of_mem_iff h.nodup (fun other => ?_) (fun _ hn => Ledger.write_of_ne _ hn _) ?_
    · by_cases hn : other = id
      · simpa [hn] using hm
      · simp [hn]
    · rw [Ledger.write_self, Account.share_giveBack]
      omega
  · have hcount := h.references_eq he
    rw [hr, hs]
    change Sound (ledger.write id (ledger id).giveBack) [] _
    refine h.change he (fun _ hn => Ledger.write_of_ne _ hn _) (e.released_owner _ _) ?_ ?_
      fun hi => ?_
    · rw [Ledger.write_self, Account.share_giveBack, Entry.released_references]
      omega
    · rw [Entry.released_references]
      exact hpos
    · rw [Entry.released_references]
      obtain hi | ⟨hone, ha, hm⟩ := Entry.idle_of_released hi
      · -- an idle entry has no reference that its user could give back
        have hone := (h.idle he hi).2.1
        omega
      · exact ⟨ha, hone, hm⟩

omit [Backend β] in
/-- Marks do not enter the bookkeeping. -/
theorem mark (h : c.Sound ledger []) (he : c.get? id = some e) {f : Entry → Entry}
    (hf : ∀ e, (f e).owner = e.owner ∧ (f e).references = e.references ∧
      (f e).idleSince = e.idleSince ∧ (f e).mapping = e.mapping) :
    (c.change id f).Sound ledger [] := by
  obtain ⟨ho, hr, hi, hm⟩ := hf e
  refine h.change he (fun _ _ => rfl) ho ?_ ?_ ?_
  · rw [hr]
    exact h.references_eq he
  · rw [hr]
    exact h.references_pos he
  · rw [hr, hi, Entry.isMapped, hm]
    exact h.idle he

omit [Backend β] in
/-- Marking an entry for deletion changes no reference. -/
theorem retire (h : c.Sound ledger []) (id : EntryId) : (retire id c).state.Sound ledger [] := by
  obtain ⟨-, -, hs⟩ | ⟨e, he, -, hs⟩ := retire_cases id c
  · rw [hs]
    exact h
  · rw [hs]
    exact h.mark he fun _ => ⟨rfl, rfl, rfl, rfl⟩

omit [Backend β] in
/-- Marking an entry as eager changes no reference. -/
theorem markEager (h : c.Sound ledger []) (id : EntryId) :
    (markEager id c).state.Sound ledger [] := by
  obtain ⟨-, -, hs⟩ | ⟨e, he, -, hs⟩ := markEager_cases id c
  · rw [hs]
    exact h
  · rw [hs]
    exact h.mark he fun _ => ⟨rfl, rfl, rfl, rfl⟩

/-- Asking for a body changes no reference. -/
theorem body (h : c.Sound ledger []) (id : EntryId) : (body id c).state.Sound ledger [] := by
  obtain hs | ⟨e, he, hs | ⟨-, data, -, hs⟩⟩ := Cache.body_cases id c
  · rw [hs]
    exact h
  · rw [hs]
    exact h.withBackend _
  · rw [hs]
    have hb := h.withBackend (Backend.loadBody e.filename c.backend).state
    have hcount := h.references_eq he
    have hpos := h.references_pos he
    exact hb.change he (fun _ _ => rfl) rfl hcount hpos fun hi => nomatch hi

/-- **The step.** No call breaks the bookkeeping, whether it succeeds or fails: the cache after the
call is sound for the account after the call. Calls on one entry are a change to it or free it; for
a sweep, the invariant is handed from entry to entry. -/
theorem run (h : c.Sound ledger []) (call : Call) :
    (call.run c).state.Sound (ledger.record call (call.run c).result) [] := by
  cases call with
  | add labels data => exact h.add labels data
  | acquire id => exact h.acquire id
  | release now id => exact h.release now id
  | retire id =>
    rw [Call.run, Action.map_apply]
    exact h.retire id
  | markEager id =>
    rw [Call.run, Action.map_apply]
    exact h.markEager id
  | body id =>
    rw [Call.run, Action.map_apply]
    exact h.body id
  | unmapIdle cutoff =>
    rw [Call.run, Action.map_apply]
    exact (h.unmapIdle cutoff).2
  | purge force =>
    rw [Call.run, Action.map_apply]
    exact (h.purge force).2
  | sweep now maxIdle =>
    rw [Call.run]
    cases hb : (sweep? now maxIdle : Option (Action (Cache β) SweepReport)) with
    | none => exact h
    | some both =>
      dsimp only
      rw [Action.map_apply]
      exact (h.sweep hb).2

/-- No run breaks the bookkeeping, by induction on its calls (`Sound.run`). -/
theorem after (h : c.Sound ledger []) (calls : List Call) :
    (c.after calls).Sound (ledger.after c calls) [] := by
  induction calls generalizing ledger c with
  | nil => exact h
  | cons call calls ih => exact ih (h.run call)

end Run

end Sound

end BlobCache.Cache
