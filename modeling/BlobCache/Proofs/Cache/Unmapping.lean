import BlobCache.Proofs.Cache.Conservation

/-!
# Unmapping idle bodies

A body is expired at some moment if nobody but the cache holds its entry and the entry has been idle
since that moment or longer (`Entry.isExpired`). A sweep for idle bodies unmaps the expired bodies
of the listed entries, counts them, and does nothing else (`Cache.Unmaps`).

Two such sweeps in a row are one sweep with the later of the two cutoffs: the bodies that the second
one finds are those that the one sweep unmaps besides (`Unmaps.trans`). `unmaps_after` has both for
every cache that a run can reach.
-/

namespace BlobCache

/-- The later of two points in time. -/
instance : Max Instant := maxOfLe

/-- A moment is not after the later of two if it is not after the one or the other. -/
private theorem Instant.le_max_iff {t a b : Instant} : t ≤ max a b ↔ t ≤ a ∨ t ≤ b := by
  have hmax : max a b = if a ≤ b then b else a := rfl
  rw [hmax]
  by_cases hab : a ≤ b
  · rw [if_pos hab]
    simp only [Instant.le_def] at hab ⊢
    omega
  · rw [if_neg hab]
    simp only [Instant.le_def] at hab ⊢
    omega

namespace Entry

/-- Whether the body is mapped for nobody but the cache, and has been idle since `cutoff` or
longer. -/
def isExpired (cutoff : Instant) (e : Entry) : Bool :=
  e.references.count == 1 && e.isMapped && e.idleSince.any (decide <| · ≤ cutoff)

theorem isExpired_iff {cutoff : Instant} {e : Entry} :
    e.isExpired cutoff ↔ e.references.count = 1 ∧ e.isMapped ∧ e.isIdleAt cutoff := by
  rw [isExpired, isIdleAt]
  cases e.idleSince with
  | none => simp
  | some since => simp [and_assoc]

/-- What is expired at the later of two moments is expired at the one or the other. -/
private theorem isExpired_max (a b : Instant) (e : Entry) :
    e.isExpired (max a b) = (e.isExpired a || e.isExpired b) := by
  unfold isExpired
  cases e.idleSince with
  | none => simp
  | some since =>
    simp only [Option.any_some, Instant.le_max_iff, Bool.decide_or]
    cases e.references.count == 1 && e.isMapped <;> rfl

/-- An entry without its body has no expired body. -/
private theorem isExpired_unmapped (cutoff : Instant) (e : Entry) :
    e.unmapped.isExpired cutoff = false := by
  simp [isExpired, unmapped, isMapped]

end Entry

namespace Cache

variable {β : Type}

/-- The listed entries whose bodies are expired. -/
def expired (c : Cache β) (cutoff : Instant) : List EntryId :=
  c.members.filter fun id => (c.get? id).any (·.isExpired cutoff)

/-- What a sweep for idle bodies does to a cache. -/
structure Unmaps (c : Cache β) (cutoff : Instant) (o : Outcome (Cache β) SweepReport) : Prop where
  /-- It counts the expired bodies. -/
  result_eq : o.result = .ok { unmapped := (c.expired cutoff).length }
  /-- Expired bodies are unmapped, and their entries are not idle any more; all other entries stay
  as they are. -/
  get?_eq : ∀ id, o.state.get? id =
    if id ∈ c.expired cutoff then (c.get? id).map Entry.unmapped else c.get? id
  /-- Nothing but entries changes. -/
  state_eq : o.state = { c with arena := o.state.arena }
  /-- No entry comes or goes. -/
  layout_eq : o.state.arena.layout = c.arena.layout

/-- Caches that differ in their entries at most, and not in what their identifiers lead to, are the
same. -/
theorem eq_of_layout_of_get? {c c' : Cache β} (hstate : c' = { c with arena := c'.arena })
    (hlayout : c'.arena.layout = c.arena.layout) (hget : ∀ id, c'.get? id = c.get? id) :
    c' = c := by
  have harena : c'.arena = c.arena := Arena.eq_of_layout_of_get? hlayout hget
  rw [harena] at hstate
  exact hstate

/-! ### Two sweeps in a row -/

theorem mem_expired {c : Cache β} {cutoff : Instant} {id : EntryId} :
    id ∈ c.expired cutoff ↔ id ∈ c.members ∧ (c.get? id).any (·.isExpired cutoff) :=
  List.mem_filter

private theorem any_isExpired_max (a b : Instant) (e : Option Entry) :
    e.any (·.isExpired (max a b)) = (e.any (·.isExpired a) || e.any (·.isExpired b)) := by
  cases e with
  | none => rfl
  | some e => exact e.isExpired_max a b

theorem mem_expired_max {c : Cache β} {a b : Instant} {id : EntryId} :
    id ∈ c.expired (max a b) ↔ id ∈ c.expired a ∨ id ∈ c.expired b := by
  simp only [mem_expired, any_isExpired_max, Bool.or_eq_true, and_or_left]

namespace Unmaps

variable {c : Cache β} {a b : Instant} {first second both : Outcome (Cache β) SweepReport}

theorem members_eq (h : c.Unmaps a first) : first.state.members = c.members := by
  rw [h.state_eq]

/-- What is expired for the second sweep is what the first one did not find. -/
private theorem any_isExpired (h : c.Unmaps a first) (b : Instant) {id : EntryId}
    (hid : id ∈ c.members) :
    (first.state.get? id).any (·.isExpired b) =
      ((c.get? id).any (·.isExpired b) && !(c.get? id).any (·.isExpired a)) := by
  rw [h.get?_eq]
  by_cases hm : id ∈ c.expired a
  · rw [if_pos hm, (mem_expired.mp hm).2, Bool.not_true, Bool.and_false]
    cases c.get? id with
    | none => rfl
    | some e => exact e.isExpired_unmapped b
  · have hnot : (c.get? id).any (·.isExpired a) = false :=
      Bool.eq_false_iff.mpr fun hany => hm (mem_expired.mpr ⟨hid, hany⟩)
    rw [if_neg hm, hnot, Bool.not_false, Bool.and_true]

theorem mem_expired (h : c.Unmaps a first) {id : EntryId} :
    id ∈ first.state.expired b ↔ id ∈ c.expired b ∧ id ∉ c.expired a := by
  simp only [Cache.mem_expired, h.members_eq]
  constructor
  · rintro ⟨hid, hany⟩
    rw [h.any_isExpired b hid, Bool.and_eq_true, Bool.not_eq_true'] at hany
    exact ⟨⟨hid, hany.1⟩, fun hm => Bool.eq_false_iff.mp hany.2 hm.2⟩
  · rintro ⟨⟨hid, hany⟩, hnot⟩
    have hfalse : (c.get? id).any (·.isExpired a) = false :=
      Bool.eq_false_iff.mpr fun ha => hnot ⟨hid, ha⟩
    rw [h.any_isExpired b hid, hany, hfalse]
    exact ⟨hid, rfl⟩

/-- The two sweeps find as many bodies as the one with the later cutoff. -/
private theorem length_expired (h : c.Unmaps a first) (b : Instant) :
    (c.expired a).length + (first.state.expired b).length = (c.expired (max a b)).length := by
  unfold expired
  rw [h.members_eq]
  simp only [← List.countP_eq_length_filter]
  -- of those that the one sweep finds, the first sweep finds some, and the second the others
  have hsplit := List.countP_eq_countP_filter_add c.members
    (fun id => (c.get? id).any (·.isExpired (max a b))) fun id => (c.get? id).any (·.isExpired a)
  rw [List.countP_filter, List.countP_filter] at hsplit
  have hfound : (c.members.countP fun id => (c.get? id).any (·.isExpired a)) =
      c.members.countP fun id => (c.get? id).any (·.isExpired (max a b)) &&
        (c.get? id).any (·.isExpired a) := by
    refine List.countP_congr fun id _ => ?_
    rw [any_isExpired_max]
    cases (c.get? id).any (·.isExpired a) <;> simp
  have hmissed : (c.members.countP fun id => (first.state.get? id).any (·.isExpired b)) =
      c.members.countP fun id => (c.get? id).any (·.isExpired (max a b)) &&
        !(c.get? id).any (·.isExpired a) := by
    refine List.countP_congr fun id hid => ?_
    rw [h.any_isExpired b hid, any_isExpired_max]
    cases (c.get? id).any (·.isExpired a) <;> simp
  rw [hfound, hmissed, hsplit]

/-- Two sweeps in a row leave what the one with the later cutoff leaves. -/
theorem trans (h : c.Unmaps a first) (h' : first.state.Unmaps b second)
    (hboth : c.Unmaps (max a b) both) : second.state = both.state := by
  have hstate : second.state = { both.state with arena := second.state.arena } := by
    rw [h'.state_eq, h.state_eq, hboth.state_eq]
  have hlayout : second.state.arena.layout = both.state.arena.layout := by
    rw [h'.layout_eq, h.layout_eq, hboth.layout_eq]
  refine eq_of_layout_of_get? hstate hlayout fun id => ?_
  rw [h'.get?_eq, h.get?_eq, hboth.get?_eq]
  -- a body is unmapped by the first sweep, or by the second, or by neither
  by_cases ha : id ∈ c.expired a
  · have hnot : id ∉ first.state.expired b := fun hm => (h.mem_expired.mp hm).2 ha
    rw [if_neg hnot, if_pos ha, if_pos (mem_expired_max.mpr (.inl ha))]
  · by_cases hb : id ∈ c.expired b
    · rw [if_pos (h.mem_expired.mpr ⟨hb, ha⟩), if_neg ha, if_pos (mem_expired_max.mpr (.inr hb))]
    · have hnot : id ∉ first.state.expired b := fun hm => hb (h.mem_expired.mp hm).1
      have hneither : id ∉ c.expired (max a b) := fun hm => (mem_expired_max.mp hm).elim ha hb
      rw [if_neg hnot, if_neg ha, if_neg hneither]

end Unmaps

/-! ### One sweep -/

namespace Sound

variable {ledger : Ledger} {c : Cache β} {id : EntryId}

/-- A listed entry is unmapped, and counted, if its body is expired. -/
private theorem unmapOne_cases (h : c.Sound ledger []) (hid : id ∈ c.members) (cutoff : Instant) :
    ((c.get? id).any (·.isExpired cutoff) = true ∧
        (Cache.unmapOne cutoff id c).result = .ok { unmapped := 1 } ∧
        (Cache.unmapOne cutoff id c).state = c.change id Entry.unmapped) ∨
      ((c.get? id).any (·.isExpired cutoff) = false ∧
        (Cache.unmapOne cutoff id c).result = .ok {} ∧
        (Cache.unmapOne cutoff id c).state = c) := by
  obtain ⟨e, he, ho, hpos⟩ := h.exists_of_listed hid
  rw [he, Option.any_some]
  obtain ⟨hle, hidle, hmapped, hr, hs⟩ | ⟨hnot, hr, hs⟩ := unmapOne_listed cutoff he ho
  · have hone : e.references.count = 1 := Nat.le_antisymm hle hpos
    exact .inl ⟨Entry.isExpired_iff.mpr ⟨hone, hmapped, hidle⟩, hr, hs⟩
  · refine .inr ⟨Bool.eq_false_iff.mpr fun hexpired => ?_, hr, hs⟩
    obtain ⟨hone, hmapped, hidle⟩ := Entry.isExpired_iff.mp hexpired
    exact hnot ⟨Nat.le_of_eq hone, hidle, hmapped⟩

/-- A sweep for idle bodies counts the expired ones, and changes entries only. -/
private theorem sweepEach_unmapOne (h : c.Sound ledger []) (cutoff : Instant) {ids : List EntryId}
    (hnodup : ids.Nodup) (hids : ∀ id ∈ ids, id ∈ c.members) :
    (sweepEach (Cache.unmapOne cutoff) ids c).result =
        .ok { unmapped := ids.countP fun id => (c.get? id).any (·.isExpired cutoff) } ∧
      (sweepEach (Cache.unmapOne cutoff) ids c).state =
        { c with arena := (sweepEach (Cache.unmapOne cutoff) ids c).state.arena } ∧
      (sweepEach (Cache.unmapOne cutoff) ids c).state.arena.layout = c.arena.layout := by
  induction ids generalizing c with
  | nil => exact ⟨rfl, rfl, rfl⟩
  | cons id ids ih =>
    obtain ⟨hnot, hnodup⟩ := List.nodup_cons.mp hnodup
    have hid : id ∈ c.members := hids id List.mem_cons_self
    obtain ⟨-, hsound, hmembers⟩ := h.unmapOne hid cutoff
    obtain ⟨hrs, hstates, hlayouts⟩ := ih hsound hnodup fun other hother =>
      hmembers ▸ hids other (List.mem_cons_of_mem id hother)
    -- the entries to come are as they were
    have hrest : (ids.countP fun other =>
        ((Cache.unmapOne cutoff id c).state.get? other).any (·.isExpired cutoff)) =
        ids.countP fun other => (c.get? other).any (·.isExpired cutoff) := by
      refine List.countP_congr fun other hother => ?_
      have hne : other ≠ id := fun hn => hnot (hn ▸ hother)
      rw [h.get?_unmapOne hid, if_neg hne]
    rw [hrest] at hrs
    obtain ⟨hexpired, hr, hs⟩ | ⟨hexpired, hr, hs⟩ := h.unmapOne_cases hid cutoff
    · obtain ⟨hall, hstate⟩ := sweepEach_cons hr hrs
      rw [hall, hstate, List.countP_cons, if_pos hexpired, Nat.add_comm]
      rw [hs] at hstates hlayouts
      rw [hs]
      exact ⟨rfl, hstates, hlayouts.trans (Arena.layout_update c.arena id Entry.unmapped)⟩
    · obtain ⟨hall, hstate⟩ := sweepEach_cons hr hrs
      rw [hall, hstate, SweepReport.empty_add, List.countP_cons,
        if_neg (Bool.eq_false_iff.mp hexpired)]
      rw [hs] at hstates hlayouts
      rw [hs]
      exact ⟨rfl, hstates, hlayouts⟩

/-- In a sound cache, an entry that has been idle since the cutoff has an expired body. -/
theorem isExpired_eq (h : c.Sound ledger []) {e : Entry} (he : c.get? id = some e)
    (cutoff : Instant) : e.isExpired cutoff = e.isIdleAt cutoff := by
  rw [Bool.eq_iff_iff, Entry.isExpired_iff]
  refine ⟨fun hexpired => hexpired.2.2, fun hidle => ?_⟩
  obtain ⟨-, hone, hmapped⟩ := h.idle he (Entry.isSome_of_isIdleAt hidle)
  exact ⟨hone, hmapped, hidle⟩

/-- In a sound cache, the idle entries are the listed ones with an expired body. -/
private theorem unmappedAt_eq (h : c.Sound ledger []) (cutoff : Instant) (id : EntryId) :
    (c.get? id).map (Entry.unmappedAt cutoff) =
      if id ∈ c.expired cutoff then (c.get? id).map Entry.unmapped else c.get? id := by
  cases he : c.get? id with
  | none => simp
  | some e =>
    have hmem : id ∈ c.expired cutoff ↔ e.isIdleAt cutoff := by
      rw [mem_expired, he, Option.any_some, h.isExpired_eq he]
      refine and_iff_right_of_imp fun hidle => ?_
      exact h.mem_of_isAttached he (h.idle he (Entry.isSome_of_isIdleAt hidle)).1
    rw [Option.map_some, Option.map_some, Entry.unmappedAt]
    by_cases hidle : e.isIdleAt cutoff
    · rw [if_pos hidle, if_pos (hmem.mpr hidle)]
    · rw [if_neg hidle, if_neg (mt hmem.mp hidle)]

/-- A sweep for idle bodies unmaps the expired ones of a sound cache. In a sound cache an idle body
is mapped and nobody but the cache holds its entry, so that what the sweep looks for is what is
expired (`Sound.isExpired_eq`). -/
theorem unmaps (h : c.Sound ledger []) (cutoff : Instant) :
    c.Unmaps cutoff (Cache.unmapIdle cutoff c) := by
  have hnodup : c.members.Nodup := h.nodup
  obtain ⟨hr, hstate, hlayout⟩ := h.sweepEach_unmapOne cutoff hnodup fun _ hid => hid
  obtain ⟨hresult, hs⟩ := unmapIdle_apply cutoff hr
  obtain ⟨-, -, hget⟩ := h.unmapIdle_effect cutoff
  constructor
  case result_eq =>
    rw [hresult, expired, List.countP_eq_length_filter]
  case get?_eq =>
    intro id
    rw [hget, h.unmappedAt_eq]
  case state_eq =>
    rw [hs]
    exact hstate
  case layout_eq =>
    rw [hs]
    exact hlayout

end Sound

/-- **Unmapping.** In every run, a sweep for idle bodies unmaps exactly the expired bodies of listed
entries, counts them, and changes nothing else (`Sound.unmaps`). Two sweeps in a row leave the cache
as one with the later cutoff does (`Unmaps.trans`), and find as many bodies together: what is not
expired at the one cutoff is left for the other. -/
theorem unmaps_after [Backend β] {id : CacheId} {backend : β} {hint : Nat}
    (hopen : (openOver id backend hint).result = .ok ()) (calls : List Call) :
    let c := (openOver id backend hint).state.after calls
    (∀ cutoff, c.Unmaps cutoff (unmapIdle cutoff c)) ∧
      ∀ first second,
        (unmapIdle second (unmapIdle first c).state).state =
            (unmapIdle (max first second) c).state ∧
          ∃ m n, (unmapIdle first c).result = .ok { unmapped := m } ∧
            (unmapIdle second (unmapIdle first c).state).result = .ok { unmapped := n } ∧
            (unmapIdle (max first second) c).result = .ok { unmapped := m + n } := by
  intro c
  have h := sound_after hopen calls
  refine ⟨h.unmaps, fun first second => ?_⟩
  have hfirst := h.unmaps first
  have hsecond := (h.unmapIdle first).2.unmaps second
  have hboth := h.unmaps (max first second)
  refine ⟨hfirst.trans hsecond hboth, _, _, hfirst.result_eq, hsecond.result_eq, ?_⟩
  rw [hboth.result_eq, hfirst.length_expired second]

/-- Two bodies are mapped and become idle, the one at the start of 1970 and the other later. -/
def becomingIdle : List Call :=
  [.acquire ⟨0, 0⟩, .body ⟨0, 0⟩, .release .epoch ⟨0, 0⟩, .add ⟨[("k", "v")]⟩ [1, 2], .body ⟨1, 0⟩,
    .release .latest ⟨1, 0⟩]

/-- A sweep up to the start of 1970 unmaps the one body, a later one would unmap both. -/
theorem unmaps_after_becomingIdle :
    (openOver ⟨1⟩ smallStore 2).result = .ok () ∧
      let c := (openOver ⟨1⟩ smallStore 2).state.after becomingIdle
      c.expired .epoch = [⟨0, 0⟩] ∧ c.expired .latest = [⟨0, 0⟩, ⟨1, 0⟩] ∧
        (∀ cutoff, c.Unmaps cutoff (unmapIdle cutoff c)) ∧
        ∀ first second,
          (unmapIdle second (unmapIdle first c).state).state =
              (unmapIdle (max first second) c).state ∧
            ∃ m n, (unmapIdle first c).result = .ok { unmapped := m } ∧
              (unmapIdle second (unmapIdle first c).state).result = .ok { unmapped := n } ∧
              (unmapIdle (max first second) c).result = .ok { unmapped := m + n } := by
  have hopen : (openOver ⟨1⟩ smallStore 2).result = .ok () := by rfl
  exact ⟨hopen, by decide +kernel, by decide +kernel, unmaps_after hopen becomingIdle⟩

end Cache

end BlobCache
