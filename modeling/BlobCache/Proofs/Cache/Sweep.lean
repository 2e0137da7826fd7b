import BlobCache.Proofs.Cache.Operation

/-!
# What sweeps do to a cache

A sweep treats one entry after the other, so what it does follows from what it does to one entry:
`sweepEach_rule` carries a property of the cache and of the entries that are still to come through
the list, and adds the reports up.

* `unmapOne_listed`: a listed entry loses its body if it is idle, and nothing else happens.
* `discard_listed`: an entry taken off the list is let go of, and the backend is told to delete its
  object; whether that works is seen in the report alone.
* `purge_apply`: a purge takes the doomed entries off the list at once and then discards them.
-/

namespace BlobCache

namespace SweepReport

@[simp]
theorem violations_add (a b : SweepReport) : (a + b).violations = a.violations + b.violations := rfl

/-- What two sweeps did, counter by counter. -/
theorem add_eq (a b : SweepReport) : a + b =
    { unmapped := a.unmapped + b.unmapped
      deleted := a.deleted + b.deleted
      retained := a.retained + b.retained
      failedRemovals := a.failedRemovals + b.failedRemovals
      violations := a.violations + b.violations } := rfl

/-- To have done nothing adds nothing. -/
theorem empty_add (r : SweepReport) : ({} : SweepReport) + r = r := by
  rw [add_eq]
  simp only [Nat.zero_add]

/-- The report on objects of which the backend was told to delete each. -/
def ofRemovals (answers : List (Except CacheError Unit)) : SweepReport :=
  { deleted := answers.countP (·.isOk), failedRemovals := answers.countP (!·.isOk) }

/-- The report on one more removal. -/
theorem ofRemovals_cons (answer : Except CacheError Unit)
    (answers : List (Except CacheError Unit)) :
    ofRemovals (answer :: answers) = ofRemovals [answer] + ofRemovals answers := by
  rw [add_eq]
  simp only [ofRemovals, List.countP_cons, List.countP_nil, Nat.zero_add, Nat.add_comm]

/-- A report on removals counts each of them once. -/
theorem deleted_add_failedRemovals (answers : List (Except CacheError Unit)) :
    (ofRemovals answers).deleted + (ofRemovals answers).failedRemovals = answers.length := by
  have hsplit := List.length_eq_countP_add_countP (fun answer : Except CacheError Unit =>
    answer.isOk) (l := answers)
  simpa [ofRemovals] using hsplit.symm

end SweepReport

namespace Cache

variable {β : Type}

/-! ### Going through a list -/

/-- The first entry is treated, then the others; what was done adds up. -/
theorem sweepEach_cons {treat : EntryId → Action (Cache β) SweepReport} {id : EntryId}
    {ids : List EntryId} {c : Cache β} {first others : SweepReport}
    (hr : (treat id c).result = .ok first)
    (hrs : (sweepEach treat ids (treat id c).state).result = .ok others) :
    (sweepEach treat (id :: ids) c).result = .ok (first + others) ∧
      (sweepEach treat (id :: ids) c).state = (sweepEach treat ids (treat id c).state).state := by
  rw [sweepEach, Action.bind_apply, hr]
  dsimp only
  rw [Action.bind_apply, hrs]
  exact ⟨rfl, rfl⟩

/-- A property of the cache and of the entries to come that every treatment hands on holds in the
end. Reports with the property `Q` may be added up. -/
theorem sweepEach_rule (treat : EntryId → Action (Cache β) SweepReport)
    {P : List EntryId → Cache β → Prop} {Q : SweepReport → Prop} (hzero : Q {})
    (hadd : ∀ a b, Q a → Q b → Q (a + b))
    (hstep : ∀ id ids c, P (id :: ids) c →
      ∃ r, (treat id c).result = .ok r ∧ Q r ∧ P ids (treat id c).state)
    (ids : List EntryId) {c : Cache β} (h : P ids c) :
    ∃ r, (sweepEach treat ids c).result = .ok r ∧ Q r ∧ P [] (sweepEach treat ids c).state := by
  induction ids generalizing c with
  | nil => exact ⟨{}, rfl, hzero, h⟩
  | cons id ids ih =>
    obtain ⟨first, hr, hq, hp⟩ := hstep id ids c h
    obtain ⟨others, hrs, hqs, hps⟩ := ih hp
    obtain ⟨hall, hstate⟩ := sweepEach_cons hr hrs
    exact ⟨first + others, hall, hadd first others hq hqs, hstate ▸ hps⟩

/-! ### One entry at a time -/

/-- A listed entry is unmapped if it is idle and nobody else holds it, and stays as it is if not. -/
theorem unmapOne_listed (cutoff : Instant) {c : Cache β} {id : EntryId} {e : Entry}
    (he : c.get? id = some e) (ho : e.owner = some c.id) :
    (e.references.count ≤ 1 ∧ e.isIdleAt cutoff ∧ e.isMapped ∧
        (unmapOne cutoff id c).result = .ok { unmapped := 1 } ∧
        (unmapOne cutoff id c).state = c.change id Entry.unmapped) ∨
      (¬(e.references.count ≤ 1 ∧ e.isIdleAt cutoff ∧ e.isMapped) ∧
        (unmapOne cutoff id c).result = .ok {} ∧ (unmapOne cutoff id c).state = c) := by
  rw [unmapOne]
  rw [Action.bind_apply, Action.get_apply]
  simp only [he]
  -- in the order of the checks: held by others, not owned, idle
  by_cases hheld : 1 < e.references.count
  · rw [if_pos hheld]
    exact .inr ⟨fun h => absurd h.1 (by omega), rfl, rfl⟩
  rw [if_neg hheld, if_neg (not_not_intro ho)]
  by_cases hidle : e.isIdleAt cutoff ∧ e.isMapped
  · rw [if_pos (by simpa using hidle)]
    exact .inl ⟨by omega, hidle.1, hidle.2, rfl, rfl⟩
  · rw [if_neg (by simpa using hidle)]
    exact .inr ⟨fun h => hidle h.2, rfl, rfl⟩

/-- An entry off the list is let go of, and its object is deleted as far as the backend can, whose
answer is reported. -/
theorem discard_listed [Backend β] {c : Cache β} {id : EntryId} {e : Entry}
    (he : c.get? id = some e) (h : 1 ≤ e.references.count) :
    (discard id c).result =
        .ok (.ofRemovals [(Backend.remove e.filename c.backend).result]) ∧
      (discard id c).state =
        (letGo id c).state.withBackend (Backend.remove e.filename c.backend).state := by
  obtain ⟨⟨left, hr⟩, hb, -⟩ := letGo_frame he h
  rw [discard]
  rw [Action.bind_apply, Action.get_apply]
  simp only [he]
  rw [Action.bind_apply, Action.attempt_apply]
  simp only [hr]
  rw [Action.bind_apply, Action.attempt_apply, onBackend_apply]
  simp only [hb]
  cases (Backend.remove e.filename c.backend).result with
  | ok _ => exact ⟨rfl, rfl⟩
  | error error => exact ⟨rfl, rfl⟩

/-- Unmapping idle bodies treats the listed entries one by one; the rest is a message. -/
theorem unmapIdle_apply (cutoff : Instant) {c : Cache β} {r : SweepReport}
    (hr : (sweepEach (unmapOne cutoff) c.members c).result = .ok r) :
    (unmapIdle cutoff c).result = .ok r ∧
      (unmapIdle cutoff c).state = (sweepEach (unmapOne cutoff) c.members c).state := by
  rw [unmapIdle, Action.bind_apply, Action.get_apply]
  dsimp only
  rw [Action.bind_apply, hr]
  dsimp only
  by_cases hu : 0 < r.unmapped
  · rw [if_pos hu]
    exact ⟨rfl, rfl⟩
  · rw [if_neg hu]
    exact ⟨rfl, rfl⟩

/-! ### Purges -/

/-- The listed entries that a purge deletes. -/
def doomed (c : Cache β) (force : Bool) : List EntryId :=
  c.members.filter (c.fate force · == .delete)

/-- The cache with some entries taken off the list. -/
def unlist (c : Cache β) (ids : List EntryId) : Cache β :=
  { c with members := c.members.filter (!ids.contains ·) }

/-- A listed entry is doomed when it is retired, and without force only if nobody else holds it. -/
theorem fate_listed {c : Cache β} {id : EntryId} {e : Entry} (he : c.get? id = some e)
    (ho : e.owner = some c.id) (h : 1 ≤ e.references.count) (force : Bool) :
    c.fate force id =
      if e.retired then
        if force = false ∧ 1 < e.references.count then .retain else .delete
      else .keep := by
  have hz : e.references.count ≠ 0 := by omega
  rw [fate]
  simp only [he, ho]
  by_cases hk : force = false ∧ 1 < e.references.count
  · simp [hk]
  · have hk' : (!force && decide (1 < e.references.count)) = false := by
      simpa using hk
    cases hr : e.retired <;> simp [hk, hk', hz]

/-- A listed entry is doomed exactly if it is retired and a purge may delete it. -/
theorem fate_eq_delete_iff {c : Cache β} {id : EntryId} {e : Entry} (he : c.get? id = some e)
    (ho : e.owner = some c.id) (h : 1 ≤ e.references.count) (force : Bool) :
    c.fate force id = .delete ↔
      e.retired ∧ (force = true ∨ e.references.count = 1) := by
  rw [fate_listed he ho h]
  cases hr : e.retired with
  | false => simp
  | true =>
    by_cases hk : force = false ∧ 1 < e.references.count
    · have hone : e.references.count ≠ 1 := by omega
      simp [hk, hone]
    · have hk' : force = true ∨ e.references.count = 1 := by
        cases force with
        | true => exact .inl rfl
        | false => exact .inr (by simp at hk; omega)
      simp [hk, hk']

/-- Judging a listed entry finds nothing wrong with it, and counts it if it is retained. -/
private theorem judge_listed {c : Cache β} {id : EntryId} {e : Entry} (he : c.get? id = some e)
    (ho : e.owner = some c.id) (h : 1 ≤ e.references.count) (force : Bool) :
    (judge force id c).result =
        .ok { retained := if c.fate force id == .retain then 1 else 0 } ∧
      (judge force id c).state = c := by
  rw [judge]
  rw [Action.bind_apply, Action.get_apply]
  simp only [fate_listed he ho h]
  cases e.retired with
  | false => exact ⟨rfl, rfl⟩
  | true =>
    by_cases hk : force = false ∧ 1 < e.references.count
    · rw [if_pos rfl, if_pos hk]
      exact ⟨rfl, rfl⟩
    · rw [if_pos rfl, if_neg hk]
      exact ⟨rfl, rfl⟩

/-- Judging listed entries counts those that are retained, and changes nothing. -/
theorem sweepEach_judge {c : Cache β} {ids : List EntryId}
    (h : ∀ id ∈ ids, ∃ e, c.get? id = some e ∧ e.owner = some c.id ∧ 1 ≤ e.references.count)
    (force : Bool) :
    (sweepEach (judge force) ids c).result =
        .ok { retained := ids.countP (c.fate force · == .retain) } ∧
      (sweepEach (judge force) ids c).state = c := by
  induction ids with
  | nil => exact ⟨rfl, rfl⟩
  | cons id ids ih =>
    obtain ⟨e, he, ho, hpos⟩ := h id List.mem_cons_self
    obtain ⟨hrs, hs⟩ := ih fun other hother => h other (List.mem_cons_of_mem id hother)
    obtain ⟨hfirst, hsame⟩ := judge_listed he ho hpos force
    rw [← hsame] at hrs
    obtain ⟨hall, hstate⟩ := sweepEach_cons hfirst hrs
    rw [hall, hstate, hsame, List.countP_cons, Nat.add_comm]
    exact ⟨rfl, hs⟩

/-- A purge counts the listed entries that it passes over, takes the doomed ones off the list and
discards them; the rest is a message. -/
theorem purge_of_ok [Backend β] {c : Cache β} {force : Bool} {passed removed : SweepReport}
    (hp : (sweepEach (judge force) c.members c).result = .ok passed)
    (hc : (sweepEach (judge force) c.members c).state = c)
    (hr : (sweepEach discard (c.doomed force) (c.unlist (c.doomed force))).result = .ok removed) :
    (purge force c).result = .ok (passed + removed) ∧
      (purge force c).state =
        (sweepEach discard (c.doomed force) (c.unlist (c.doomed force))).state := by
  -- judging leaves the cache alone, so the list is the one that was judged
  unfold doomed unlist at hr ⊢
  rw [purge]
  rw [Action.bind_apply, Action.get_apply]
  dsimp only
  rw [Action.bind_apply, hp, hc]
  dsimp only
  rw [Action.bind_apply, Action.modify_apply]
  dsimp only
  rw [Action.bind_apply, hr]
  dsimp only
  by_cases hd : 0 < (passed + removed).deleted
  · rw [if_pos hd]
    exact ⟨rfl, rfl⟩
  · rw [if_neg hd]
    exact ⟨rfl, rfl⟩

/-- A purge takes the doomed entries off the list and discards them. -/
theorem purge_apply [Backend β] {c : Cache β} (force : Bool)
    (h : ∀ id ∈ c.members,
      ∃ e, c.get? id = some e ∧ e.owner = some c.id ∧ 1 ≤ e.references.count)
    {removed : SweepReport} {after : Cache β}
    (hr : (sweepEach discard (c.doomed force) (c.unlist (c.doomed force))).result = .ok removed)
    (hs : (sweepEach discard (c.doomed force) (c.unlist (c.doomed force))).state = after) :
    (∃ r, (purge force c).result = .ok r ∧ r.violations = removed.violations) ∧
      (purge force c).state = after := by
  obtain ⟨hp, hc⟩ := sweepEach_judge h force
  obtain ⟨hresult, hstate⟩ := purge_of_ok hp hc hr
  refine ⟨⟨_, hresult, ?_⟩, hstate.trans hs⟩
  rw [SweepReport.violations_add, Nat.zero_add]

end Cache

end BlobCache
