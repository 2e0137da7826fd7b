import BlobCache.Proofs.Cache.Opening

/-!
# What housekeeping leaves

Sweeps treat entries one by one, but what they leave has a short description. A sweep for idle
bodies unmaps those that are idle (`Sound.unmapIdle_effect`). A purge takes the cache's own
reference from every doomed entry, so that of these only the ones remain that someone else holds;
the backend is told to delete their objects, in the order of the list, and sees nothing else
(`Sound.purge_effect`). Without force nothing remains of them (`Sound.get?_purge_false`). A sweep
that does both leaves what the one leaves of what the other left (`Sound.sweep_apply`).
-/

namespace BlobCache

/-- The backend after deleting objects one by one, as far as it can. -/
def Backend.removeAll {β : Type} [Backend β] (b : β) (names : List String) : β :=
  names.foldl (fun b name => (Backend.remove name b).state) b

namespace Entry

/-- The entry without the body if that has been idle since `cutoff`. -/
def unmappedAt (cutoff : Instant) (e : Entry) : Entry :=
  if e.isIdleAt cutoff then e.unmapped else e

/-- An entry that is not idle stays as it is. -/
theorem unmappedAt_of_idleSince {e : Entry} (h : e.idleSince = none) (cutoff : Instant) :
    e.unmappedAt cutoff = e := by
  rw [unmappedAt, isIdleAt, h]
  exact if_neg Bool.false_ne_true

/-- Unmapping a body leaves the name of the object. -/
@[simp]
theorem filename_unmappedAt (cutoff : Instant) (e : Entry) :
    (e.unmappedAt cutoff).filename = e.filename := by
  rw [unmappedAt]
  split <;> rfl

/-- An entry that has been idle since some moment is idle. -/
theorem isSome_of_isIdleAt {e : Entry} {cutoff : Instant} (h : e.isIdleAt cutoff) :
    e.idleSince.isSome := by
  cases hi : e.idleSince with
  | none => simp [isIdleAt, hi] at h
  | some since => rfl

/-- What is left of an entry when its cache gives it up: nothing, unless someone else holds it. -/
def surrender? (e : Entry) : Option Entry :=
  match e.references.decrement with
  | .ok left => if left.count = 0 then none else some (e.surrendered left)
  | .error _ => none

/-- Of an entry that nobody else holds, nothing is left. -/
theorem surrender?_of_last {e : Entry} (h : e.references.count = 1) : e.surrender? = none := by
  obtain ⟨h0, -⟩ | ⟨left, hd, hcount⟩ := e.references.decrement_cases
  · omega
  · have hz : left.count = 0 := by omega
    rw [surrender?, hd]
    exact if_pos hz

/-- An entry that someone else holds stays, without an owner. -/
theorem surrender?_of_held {e : Entry} (h : 1 < e.references.count) :
    ∃ left, left.count + 1 = e.references.count ∧ e.surrender? = some (e.surrendered left) := by
  obtain ⟨h0, -⟩ | ⟨left, hd, hcount⟩ := e.references.decrement_cases
  · omega
  · have hz : left.count ≠ 0 := by omega
    refine ⟨left, hcount, ?_⟩
    rw [surrender?, hd]
    exact if_neg hz

/-- What is left of an entry is that entry without an owner, held by the others. -/
theorem eq_of_surrender? {e e' : Entry} (h : e.surrender? = some e') :
    ∃ left, left.count + 1 = e.references.count ∧ 0 < left.count ∧ e' = e.surrendered left := by
  obtain ⟨h0, hd⟩ | ⟨left, hd, hcount⟩ := e.references.decrement_cases
  · rw [surrender?, hd] at h
    cases h
  · rw [surrender?, hd] at h
    dsimp only at h
    by_cases hz : left.count = 0
    · rw [if_pos hz] at h
      cases h
    · rw [if_neg hz] at h
      cases h
      exact ⟨left, hcount, Nat.pos_of_ne_zero hz, rfl⟩

end Entry

namespace Cache

variable {β : Type}

/-- The names of the objects of some entries. -/
def filenames (c : Cache β) (ids : List EntryId) : List String :=
  ids.filterMap fun id => (c.get? id).map (·.filename)

/-- The entries after one was let go of. -/
private theorem get?_letGo {c : Cache β} {id : EntryId} {e : Entry} (he : c.get? id = some e)
    (h : 1 ≤ e.references.count) (other : EntryId) :
    (letGo id c).state.get? other = if other = id then e.surrender? else c.get? other := by
  rcases Nat.eq_or_lt_of_le h with h1 | hgt
  · rw [(letGo_last he h1.symm).2, get?_free, e.surrender?_of_last h1.symm]
  · obtain ⟨left, hleft, -, hs⟩ := letGo_held he hgt
    obtain ⟨left', hleft', hsome⟩ := Entry.surrender?_of_held hgt
    have hsame : left = left' := RefCount.eq_of_count_eq (by omega)
    rw [hs, get?_change, he, hsome, hsame]
    rfl

/-- A sweep whose treatment of an entry does `g` to it, and nothing to others, does `g` to the
entries on its way. -/
private theorem sweepEach_pointwise (treat : EntryId → Action (Cache β) SweepReport)
    (g : Entry → Option Entry) {P : List EntryId → Cache β → Prop}
    (hstep : ∀ id ids c, id ∉ ids → P (id :: ids) c →
      (∃ r, (treat id c).result = .ok r) ∧ P ids (treat id c).state ∧
        ∀ other, (treat id c).state.get? other =
          if other = id then (c.get? id).bind g else c.get? other)
    {ids : List EntryId} (hnodup : ids.Nodup) {c : Cache β} (h : P ids c) :
    (∃ r, (sweepEach treat ids c).result = .ok r) ∧ P [] (sweepEach treat ids c).state ∧
      ∀ other, (sweepEach treat ids c).state.get? other =
        if other ∈ ids then (c.get? other).bind g else c.get? other := by
  induction ids generalizing c with
  | nil => exact ⟨⟨{}, rfl⟩, h, fun other => rfl⟩
  | cons id ids ih =>
    obtain ⟨hnot, hnodup⟩ := List.nodup_cons.mp hnodup
    obtain ⟨⟨first, hr⟩, hp, hget⟩ := hstep id ids c hnot h
    obtain ⟨⟨others, hrs⟩, hps, hgets⟩ := ih hnodup hp
    obtain ⟨hall, hstate⟩ := sweepEach_cons hr hrs
    rw [hstate]
    refine ⟨⟨_, hall⟩, hps, fun other => (hgets other).trans ?_⟩
    rw [hget]
    -- an entry is treated once: when its turn comes, and not again
    by_cases hn : other = id
    · rw [hn, if_neg hnot, if_pos rfl, if_pos List.mem_cons_self]
    · rw [if_neg hn]
      by_cases hm : other ∈ ids
      · rw [if_pos hm, if_pos (List.mem_cons_of_mem id hm)]
      · rw [if_neg hm, if_neg fun h => (List.mem_cons.mp h).elim hn hm]

/-- The first name is that of the first entry. -/
theorem filenames_cons {c : Cache β} {id : EntryId} {e : Entry} (he : c.get? id = some e)
    (ids : List EntryId) : c.filenames (id :: ids) = e.filename :: c.filenames ids := by
  simp only [filenames, List.filterMap_cons, he, Option.map_some]

/-- The names of the objects of some entries, when others changed. -/
theorem filenames_congr {c c' : Cache β} {ids : List EntryId}
    (h : ∀ id ∈ ids, (c'.get? id).map (·.filename) = (c.get? id).map (·.filename)) :
    c'.filenames ids = c.filenames ids := by
  induction ids with
  | nil => rfl
  | cons id ids ih =>
    simp only [filenames, List.filterMap_cons]
    rw [h id List.mem_cons_self]
    have hrest := ih fun i hi => h i (List.mem_cons_of_mem id hi)
    simp only [filenames] at hrest
    rw [hrest]

/-- Whether a listed entry is doomed is decided by its fate. -/
theorem contains_doomed {c : Cache β} {force : Bool} {id : EntryId} (hid : id ∈ c.members) :
    (c.doomed force).contains id = (c.fate force id == .delete) := by
  rw [Bool.eq_iff_iff]
  simp [doomed, List.mem_filter, hid]

namespace Sound

variable {ledger : Ledger} {pending : List EntryId} {c : Cache β} {id : EntryId} {e : Entry}

/-! ### Idle bodies -/

/-- Only idle entries are unmapped, and idle entries are listed. -/
private theorem unmappedAt_of_not_mem (h : c.Sound ledger []) (he : c.get? id = some e)
    (hm : id ∉ c.members) (cutoff : Instant) : e.unmappedAt cutoff = e := by
  cases hi : e.idleSince with
  | none => exact Entry.unmappedAt_of_idleSince hi cutoff
  | some since =>
    have ha := (h.idle he (by rw [hi]; rfl)).1
    exact absurd (h.mem_of_isAttached he ha) hm

/-- A listed entry is unmapped if it is idle. -/
theorem get?_unmapOne (h : c.Sound ledger []) (hm : id ∈ c.members) (cutoff : Instant)
    (other : EntryId) :
    (Cache.unmapOne cutoff id c).state.get? other =
      if other = id then (c.get? id).bind fun e => some (e.unmappedAt cutoff)
      else c.get? other := by
  obtain ⟨e, he, ho, -⟩ := h.exists_of_listed hm
  obtain ⟨-, hidle, -, -, hs⟩ | ⟨hnot, -, hs⟩ := unmapOne_listed cutoff he ho
  · rw [hs, get?_change, he, Option.map_some, Option.bind_some, Entry.unmappedAt, if_pos hidle]
  · have hidle : ¬e.isIdleAt cutoff := fun hidle => by
      obtain ⟨-, hone, hmapped⟩ := h.idle he (Entry.isSome_of_isIdleAt hidle)
      exact hnot ⟨Nat.le_of_eq hone, hidle, hmapped⟩
    rw [hs, he, Option.bind_some, Entry.unmappedAt, if_neg hidle]
    by_cases hn : other = id
    · rw [if_pos hn, hn, he]
    · rw [if_neg hn]

/-- Treating a listed entry for idleness leaves the backend alone. -/
private theorem backend_unmapOne (h : c.Sound ledger []) (hm : id ∈ c.members) (cutoff : Instant) :
    (Cache.unmapOne cutoff id c).state.backend = c.backend := by
  obtain ⟨e, he, ho, -⟩ := h.exists_of_listed hm
  obtain ⟨-, -, -, -, hs⟩ | ⟨-, -, hs⟩ := unmapOne_listed cutoff he ho
  · rw [hs, change_backend]
  · rw [hs]

/-- A sweep for idle bodies unmaps exactly the idle entries. It treats each of them by itself, and
what it does to one entry does not depend on the others (`sweepEach_pointwise`). -/
theorem unmapIdle_effect (h : c.Sound ledger []) (cutoff : Instant) :
    (Cache.unmapIdle cutoff c).state.members = c.members ∧
      (Cache.unmapIdle cutoff c).state.backend = c.backend ∧
      ∀ id, (Cache.unmapIdle cutoff c).state.get? id =
        (c.get? id).map (Entry.unmappedAt cutoff) := by
  have hnodup : c.members.Nodup := h.nodup
  obtain ⟨⟨r, hr⟩, ⟨-, hm, hb, -⟩, hget⟩ :=
    sweepEach_pointwise (Cache.unmapOne cutoff) (fun e => some (e.unmappedAt cutoff))
      (P := fun ids (c' : Cache β) => c'.Sound ledger [] ∧ c'.members = c.members ∧
        c'.backend = c.backend ∧ ∀ id ∈ ids, id ∈ c.members)
      (fun id ids c' _ ⟨hc', hm, hb, hids⟩ => by
        have hid : id ∈ c'.members := hm ▸ hids id List.mem_cons_self
        obtain ⟨⟨r, hr, -⟩, hs, hm'⟩ := hc'.unmapOne hid cutoff
        exact ⟨⟨r, hr⟩, ⟨hs, hm'.trans hm, (hc'.backend_unmapOne hid cutoff).trans hb,
          fun i hi => hids i (List.mem_cons_of_mem id hi)⟩, hc'.get?_unmapOne hid cutoff⟩)
      hnodup ⟨h, rfl, rfl, fun _ hi => hi⟩
  rw [(unmapIdle_apply cutoff hr).2]
  refine ⟨hm, hb, fun id => (hget id).trans ?_⟩
  by_cases hid : id ∈ c.members
  · rw [if_pos hid]
    cases c.get? id <;> rfl
  · rw [if_neg hid]
    cases he : c.get? id with
    | none => rfl
    | some e => rw [Option.map_some, h.unmappedAt_of_not_mem he hid]

/-- To unmap idle bodies is not to rename anything. -/
theorem filenames_unmapIdle (h : c.Sound ledger []) (cutoff : Instant) (ids : List EntryId) :
    (Cache.unmapIdle cutoff c).state.filenames ids = c.filenames ids := by
  obtain ⟨-, -, hget⟩ := h.unmapIdle_effect cutoff
  refine filenames_congr fun id _ => ?_
  rw [hget]
  cases c.get? id with
  | none => rfl
  | some e => exact congrArg some (e.filename_unmappedAt cutoff)

/-! ### Purges -/

variable [Backend β]

/-- A pending entry that is discarded leaves what others hold of it, and no object. -/
theorem get?_discard (h : c.Sound ledger (id :: pending)) (other : EntryId) :
    (Cache.discard id c).state.get? other =
      if other = id then (c.get? id).bind Entry.surrender? else c.get? other := by
  obtain ⟨e, he, -, hpos⟩ := h.exists_of_pending
  rw [(discard_listed he hpos).2, withBackend_get?, get?_letGo he hpos, he, Option.bind_some]

/-- Discarding a pending entry changes no name of those to come. -/
theorem filenames_discard (h : c.Sound ledger (id :: pending)) :
    (Cache.discard id c).state.filenames pending = c.filenames pending := by
  have hnot : id ∉ pending := fun hm =>
    (List.nodup_cons.mp h.nodup).1 (List.mem_append_left c.members hm)
  refine filenames_congr fun other ho => ?_
  have hn : other ≠ id := fun hn => hnot (hn ▸ ho)
  rw [h.get?_discard, if_neg hn]

/-- Discarding a pending entry leaves the list alone and has the backend delete one object of those
that are to be deleted. -/
private theorem backend_discard (h : c.Sound ledger (id :: pending)) :
    (Cache.discard id c).state.members = c.members ∧
      Backend.removeAll (Cache.discard id c).state.backend
          ((Cache.discard id c).state.filenames pending) =
        Backend.removeAll c.backend (c.filenames (id :: pending)) := by
  obtain ⟨e, he, -, hpos⟩ := h.exists_of_pending
  obtain ⟨-, hlb, hlm⟩ := letGo_frame he hpos
  rw [h.filenames_discard, filenames_cons he, (discard_listed he hpos).2]
  refine ⟨hlm, ?_⟩
  rw [Backend.removeAll, Backend.removeAll, List.foldl_cons]
  rfl

/-- A purge takes the doomed entries off the list, leaves of them what others hold, and has the
backend delete their objects. While the doomed entries are discarded one by one, those that are
still to come are pending, and the backend has still to delete their objects. -/
theorem purge_effect (h : c.Sound ledger []) (force : Bool) :
    (Cache.purge force c).state.members = c.members.filter (!c.fate force · == .delete) ∧
      (Cache.purge force c).state.backend =
        Backend.removeAll c.backend (c.filenames (c.doomed force)) ∧
      ∀ id, (Cache.purge force c).state.get? id =
        if id ∈ c.doomed force then (c.get? id).bind Entry.surrender? else c.get? id := by
  have hnodup : c.members.Nodup := h.nodup
  obtain ⟨⟨r, hr⟩, ⟨-, hm, hb⟩, hget⟩ :=
    sweepEach_pointwise Cache.discard Entry.surrender?
      (P := fun ids (c' : Cache β) => c'.Sound ledger ids ∧
        c'.members = (c.unlist (c.doomed force)).members ∧
        Backend.removeAll c'.backend (c'.filenames ids) =
          Backend.removeAll c.backend (c.filenames (c.doomed force)))
      (fun id ids c' _ ⟨hc', hm, hb⟩ => by
        obtain ⟨⟨r, hr, -⟩, hs⟩ := hc'.discard
        obtain ⟨hm', hb'⟩ := hc'.backend_discard
        exact ⟨⟨r, hr⟩, ⟨hs, hm'.trans hm, hb'.trans hb⟩, hc'.get?_discard⟩)
      (hnodup.filter _) ⟨h.unlist _, rfl, rfl⟩
  -- to be off the list of the doomed is to have another fate
  have hstay : (c.unlist (c.doomed force)).members =
      c.members.filter (!c.fate force · == .delete) :=
    List.filter_congr fun id hid => by rw [contains_doomed hid]
  rw [(purge_apply force (fun _ hm => h.exists_of_listed hm) hr rfl).2]
  exact ⟨hm.trans hstay, hb, hget⟩

/-- Of the entries that are doomed without force, a purge without force leaves nothing. -/
theorem get?_purge_false (h : c.Sound ledger []) (id : EntryId) :
    (Cache.purge false c).state.get? id = if id ∈ c.doomed false then none else c.get? id := by
  rw [(h.purge_effect false).2.2]
  by_cases hd : id ∈ c.doomed false
  · obtain ⟨hm, hfate⟩ := List.mem_filter.mp hd
    obtain ⟨e, he, ho, hpos⟩ := h.exists_of_listed hm
    have hdel := (fate_eq_delete_iff he ho hpos false).mp (beq_iff_eq.mp hfate)
    have hone : e.references.count = 1 := hdel.2.resolve_left Bool.false_ne_true
    rw [if_pos hd, if_pos hd, he, Option.bind_some, Entry.surrender?_of_last hone]
  · rw [if_neg hd, if_neg hd]

/-- If the cutoff is representable, a sweep unmaps idle bodies, then deletes the retired entries
that nobody holds, and adds the reports up. -/
theorem sweep_apply (h : c.Sound ledger []) {now cutoff : Instant} {maxIdle : Duration}
    (hcutoff : now.add? (-maxIdle) = some cutoff) :
    ∃ both unmapped purged, sweep? now maxIdle = some both ∧
      (Cache.unmapIdle cutoff c).result = .ok unmapped ∧
      (Cache.purge false (Cache.unmapIdle cutoff c).state).result = .ok purged ∧
      (both c).result = .ok (unmapped + purged) ∧
      (both c).state = (Cache.purge false (Cache.unmapIdle cutoff c).state).state := by
  obtain ⟨⟨unmapped, hu, -⟩, hs⟩ := h.unmapIdle cutoff
  obtain ⟨⟨purged, hp, -⟩, -⟩ := hs.purge false
  refine ⟨_, unmapped, purged, congrArg (Option.map _) hcutoff, hu, hp, ?_⟩
  dsimp only
  rw [Action.bind_apply, hu]
  dsimp only
  rw [Action.bind_apply, hp]
  exact ⟨rfl, rfl⟩

/-- A sweep leaves what its two parts leave. -/
theorem sweep_effect (h : c.Sound ledger []) {now : Instant} {maxIdle : Duration}
    {both : Action (Cache β) SweepReport} (hb : sweep? now maxIdle = some both) :
    ∃ cutoff, (both c).state = (Cache.purge false (Cache.unmapIdle cutoff c).state).state := by
  obtain ⟨cutoff, hcutoff, -⟩ := Option.map_eq_some_iff.mp hb
  obtain ⟨both', -, -, hb', -, -, -, hs⟩ := h.sweep_apply hcutoff
  obtain rfl := Option.some.inj (hb'.symm.trans hb)
  exact ⟨cutoff, hs⟩

end Sound

end Cache

end BlobCache
