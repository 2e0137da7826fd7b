import BlobCache.Proofs.Cache.Deletion
import BlobCache.Proofs.Cache.Unmapping

/-!
# The two phases of a sweep

A sweep unmaps the bodies that have been idle since a cutoff, and then deletes the retired entries
that nobody but the cache holds. Both phases look for entries of one reference, and the second may
free an entry that the first has just changed; still, their order does not matter to the cache
(`Cache.SweepsInPhases`). Freeing an entry leaves nothing of what was unmapped before, the backend
is told to delete the same objects whatever it answers, and the cells of the arena are vacated one
after the other in either case, so they will be used again in the same order.

The order matters to the report: what is deleted first is not there to be unmapped, and not counted
(`Sound.length_expired_purge`). `sweeps_after` has all of it for every cache that a run can reach,
and that no sweep is made if the cutoff is not representable.
-/

namespace BlobCache

/-- A point in time may be moved to every other. -/
private theorem Instant.add?_eq_some {t t' : Instant} {duration : Duration}
    (h : t'.ns = t.ns + duration.ns) : t.add? duration = some t' := by
  rw [Instant.add?, Instant.ofNs?, ← h]
  exact dif_pos ⟨t'.earliest_le, t'.le_latest⟩

namespace Cache

variable {β : Type} [Backend β]

/-- What a sweep with this cutoff does to a cache. -/
structure SweepsInPhases (c : Cache β) (cutoff : Instant) (o : Outcome (Cache β) SweepReport) :
    Prop where
  /-- It unmaps idle bodies, and then deletes retired entries. -/
  state_eq : o.state = (purge false (unmapIdle cutoff c).state).state
  /-- In the opposite order, the two phases leave the same cache. -/
  swapped_eq : (unmapIdle cutoff (purge false c).state).state = o.state
  /-- The report adds up those of the two phases. In the opposite order the deletions are reported
  in the same way, but entries that are idle and taken off the list are not reported as unmapped. -/
  reports : ∃ unmapped purged rest,
    (unmapIdle cutoff c).result = .ok unmapped ∧
    (purge false (unmapIdle cutoff c).state).result = .ok purged ∧
    o.result = .ok (unmapped + purged) ∧
    (purge false c).result = .ok purged ∧
    (unmapIdle cutoff (purge false c).state).result = .ok rest ∧
    unmapped + purged = purged + rest +
      { unmapped := c.members.countP fun id =>
          (c.get? id).any (·.isIdleAt cutoff) && decide (id ∉ (purge false c).state.members) }

/-- What a sweep of a cache is like. -/
structure Sweeps (c : Cache β) (now : Instant) (maxIdle : Duration) : Prop where
  /-- It is made of its phases if the cutoff is representable. -/
  within : ∀ cutoff : Instant, cutoff.ns = now.ns - maxIdle.ns →
    ∃ both, sweep? now maxIdle = some both ∧ c.SweepsInPhases cutoff (both c)
  /-- It is not made if the cutoff is not representable. -/
  beyond : now.ns - maxIdle.ns < Instant.earliest.ns ∨
      Instant.latest.ns < now.ns - maxIdle.ns →
    (sweep? now maxIdle : Option (Action (Cache β) SweepReport)) = none ∧
      (Call.sweep now maxIdle).run c = ⟨.ok .beyondRange, c, []⟩

namespace Sound

variable {ledger : Ledger} {pending : List EntryId} {c : Cache β}

/-! ### The arena -/

/-- Discarding entries that nobody but the cache holds vacates their cells, one after the other. -/
private theorem arena_sweepEach_discard (h : c.Sound ledger pending)
    (hone : ∀ id ∈ pending, ∀ e, c.get? id = some e → e.references.count = 1) :
    (sweepEach Cache.discard pending c).state.arena = pending.foldl Arena.remove c.arena := by
  induction pending generalizing c with
  | nil => rfl
  | cons id pending ih =>
    obtain ⟨e, he, -, hpos⟩ := h.exists_of_pending
    obtain ⟨hfirst, hdiscarded⟩ := discard_listed he hpos
    obtain ⟨hrs, -⟩ := h.discard.2.sweepEach_discard
    have harena : (Cache.discard id c).state.arena = c.arena.remove id := by
      rw [hdiscarded, (letGo_last he (hone id List.mem_cons_self e he)).2]
      rfl
    have hnot : id ∉ pending := fun hm =>
      (List.nodup_cons.mp h.nodup).1 (List.mem_append_left c.members hm)
    -- the entries to come have as many references as before
    have hrest : ∀ other ∈ pending, ∀ e, (Cache.discard id c).state.get? other = some e →
        e.references.count = 1 := by
      intro other hother e he
      have hn : other ≠ id := fun hn => hnot (hn ▸ hother)
      rw [h.get?_discard, if_neg hn] at he
      exact hone other (List.mem_cons_of_mem id hother) e he
    rw [(sweepEach_cons hfirst hrs).2, ih h.discard.2 hrest, harena, List.foldl_cons]

/-- A purge without force vacates the cells of the condemned entries, in the order of the list. -/
private theorem arena_purge_false (h : c.Sound ledger []) :
    (Cache.purge false c).state.arena = (c.condemned false).foldl Arena.remove c.arena := by
  rw [(h.purge_eq false).2]
  exact (h.unlist_condemned false).arena_sweepEach_discard fun _ hid _ he =>
    references_of_condemned hid he

/-! ### The two orders -/

/-- To unmap first and delete then leaves the same cache as to delete first and unmap then. Two
caches are the same if their lists, backends, layouts and entries are (`eq_of_layout_of_get?`), and
each of these is known after either phase (`Sound.unmaps`, `Sound.purges`). For the layouts, both
sides vacate the same cells in the same order (`Arena.layout_foldl_remove`). -/
private theorem unmapIdle_purge (h : c.Sound ledger []) (cutoff : Instant) :
    (Cache.unmapIdle cutoff (Cache.purge false c).state).state =
      (Cache.purge false (Cache.unmapIdle cutoff c).state).state := by
  have hunmapped := (h.unmapIdle cutoff).2
  have hpurged := (h.purge false).2
  have hu := h.unmaps cutoff
  have hp := h.purges false
  have hup := hunmapped.purges false
  have hpu := hpurged.unmaps cutoff
  have hcondemned := h.condemned_unmapIdle cutoff false
  have hmembers : (Cache.purge false (Cache.unmapIdle cutoff c).state).state.members =
      (Cache.purge false c).state.members := by
    rw [hup.members_eq, hp.members_eq, hcondemned, hu.members_eq]
  have hbackend : (Cache.purge false (Cache.unmapIdle cutoff c).state).state.backend =
      (Cache.purge false c).state.backend := by
    rw [hup.backend_eq, hp.backend_eq, hcondemned, h.filenames_unmapIdle, hu.state_eq]
  refine eq_of_layout_of_get? ?_ ?_ fun id => ?_
  · rw [hup.state_eq, hmembers, hbackend, hpu.state_eq, hp.state_eq, hu.state_eq]
  · rw [hpu.layout_eq, h.arena_purge_false, hunmapped.arena_purge_false, hcondemned,
      Arena.layout_foldl_remove, Arena.layout_foldl_remove, hu.layout_eq]
  · rw [(hpurged.unmapIdle_effect cutoff).2.2, h.get?_purge_false, hunmapped.get?_purge_false,
      hunmapped.doomed_eq, hcondemned, h.doomed_eq, (h.unmapIdle_effect cutoff).2.2]
    split <;> rfl

/-! ### The reports -/

/-- What a purge without force reports does not depend on idle bodies. -/
private theorem result_purge_unmapIdle (h : c.Sound ledger []) (cutoff : Instant) :
    (Cache.purge false (Cache.unmapIdle cutoff c).state).result =
      (Cache.purge false c).result := by
  rw [((h.unmapIdle cutoff).2.purges false).result_eq, (h.purges false).result_eq]
  rw [h.condemned_unmapIdle, h.filenames_unmapIdle, h.withheld_unmapIdle,
    (h.unmapIdle_effect cutoff).2.1]

/-- Of the expired bodies, those are not found after a purge whose entries it took off the list. The
list is split into what the purge condemns and what it leaves as it is. -/
theorem length_expired_purge (h : c.Sound ledger []) (cutoff : Instant) :
    (c.expired cutoff).length = ((Cache.purge false c).state.expired cutoff).length +
      c.members.countP fun id => (c.get? id).any (·.isIdleAt cutoff) &&
        decide (id ∉ (Cache.purge false c).state.members) := by
  have hmembers := (h.purges false).members_eq
  have hsplit := List.countP_eq_countP_filter_add c.members
    (fun id => (c.get? id).any (·.isExpired cutoff)) (· ∉ c.condemned false)
  rw [expired, expired, ← List.countP_eq_length_filter, ← List.countP_eq_length_filter, hsplit,
    hmembers]
  congr 1
  · -- what stays on the list stays as it is
    refine List.countP_congr fun id hid => ?_
    have hnot : id ∉ c.condemned false := by simpa using (List.mem_filter.mp hid).2
    rw [(h.purges false).others id hnot]
  · rw [List.countP_filter]
    refine List.countP_congr fun id hid => ?_
    obtain ⟨e, he, -⟩ := h.exists_of_listed hid
    rw [he, Option.any_some, Option.any_some, h.isExpired_eq he]
    simp [List.mem_filter, hid]

/-- A sweep of a sound cache does what its phases do, in whichever order: the states are those of
`Sound.unmapIdle_purge`, and the reports differ by what `Sound.length_expired_purge` counts. -/
private theorem sweepsInPhases (h : c.Sound ledger []) {now cutoff : Instant} {maxIdle : Duration}
    (hcutoff : now.add? (-maxIdle) = some cutoff) :
    ∃ both, sweep? now maxIdle = some both ∧ c.SweepsInPhases cutoff (both c) := by
  obtain ⟨both, unmapped, purged, hboth, hu, hp, hr, hs⟩ := h.sweep_apply hcutoff
  have hpurged := (h.purge false).2
  obtain ⟨⟨rest, hrest, -⟩, -⟩ := hpurged.unmapIdle cutoff
  have hreport : unmapped = { unmapped := (c.expired cutoff).length } :=
    Except.ok.inj (hu.symm.trans (h.unmaps cutoff).result_eq)
  have hreport' : rest = { unmapped := ((Cache.purge false c).state.expired cutoff).length } :=
    Except.ok.inj (hrest.symm.trans (hpurged.unmaps cutoff).result_eq)
  refine ⟨both, hboth, hs, (h.unmapIdle_purge cutoff).trans hs.symm, unmapped, purged, rest, hu, hp,
    hr, (h.result_purge_unmapIdle cutoff).symm.trans hp, hrest, ?_⟩
  rw [hreport, hreport', h.length_expired_purge]
  simp only [SweepReport.add_eq, SweepReport.mk.injEq]
  omega

/-- What a sweep of a sound cache is like, whether its cutoff is representable or not. -/
theorem sweeps (h : c.Sound ledger []) (now : Instant) (maxIdle : Duration) :
    c.Sweeps now maxIdle where
  within _ hcutoff := h.sweepsInPhases (Instant.add?_eq_some hcutoff)
  beyond hrange := by
    have hnone : (sweep? now maxIdle : Option (Action (Cache β) SweepReport)) = none :=
      Option.map_eq_none_iff.mpr (Instant.add?_eq_none_iff.mpr hrange)
    refine ⟨hnone, ?_⟩
    rw [Call.run, hnone]
    rfl

end Sound

/-- **The two phases.** In every run, a sweep unmaps idle bodies and then deletes retired entries;
in the opposite order the phases leave the same cache, down to the order in which its cells will be
used again, and report the same but for the bodies of deleted entries. If the cutoff is not
representable, no sweep is made. Every cache that a run can reach is sound (`sound_after`), and
`Sound.sweeps` asks for no more. -/
theorem sweeps_after {id : CacheId} {backend : β} {hint : Nat}
    (hopen : (openOver id backend hint).result = .ok ()) (calls : List Call) (now : Instant)
    (maxIdle : Duration) : ((openOver id backend hint).state.after calls).Sweeps now maxIdle :=
  (sound_after hopen calls).sweeps now maxIdle

/-- Two entries are idle, one of which is retired. -/
def retiringIdle : List Call :=
  [.acquire ⟨0, 0⟩, .body ⟨0, 0⟩, .release .epoch ⟨0, 0⟩, .retire ⟨0, 0⟩,
    .add ⟨[("k", "v")]⟩ [1, 2], .body ⟨1, 0⟩, .release .epoch ⟨1, 0⟩]

/-- Both bodies are unmapped, or one of them if the other is deleted first, though its object cannot
be. -/
theorem sweeps_after_retiringIdle :
    (openOver ⟨1⟩ stubbornStore 2).result = .ok () ∧
      let c := (openOver ⟨1⟩ stubbornStore 2).state.after retiringIdle
      (unmapIdle .epoch c).result = .ok { unmapped := 2 } ∧
        (purge false c).result = .ok { failedRemovals := 1 } ∧
        (unmapIdle .epoch (purge false c).state).result = .ok { unmapped := 1 } ∧
        c.Sweeps .epoch ⟨0⟩ := by
  have hopen : (openOver ⟨1⟩ stubbornStore 2).result = .ok () := by rfl
  exact ⟨hopen, by rfl, by rfl, by rfl, sweeps_after hopen retiringIdle .epoch ⟨0⟩⟩

end Cache

end BlobCache
