import BlobCache.Proofs.Cache.Conservation

/-!
# Idle bodies and stray ones

A mapped body that only the cache refers to should be idle since some moment, so that a sweep finds
it in time. It is, as long as the entry became idle by a `release`. But a body may also be mapped
when only the cache holds the entry, and `body` starts no idle time: this is a stray, which no sweep
for idle bodies finds, however late it comes.

`Strays` has on record where this happened. A stray is one until someone takes a reference to the
entry, and a later `release` makes an idle body of it. There are no other bodies that sweeps pass
over: `Cache.Watched` says so of a cache, every call keeps it (`Watched.run`), and what is left
mapped by a sweep with a late cutoff is therefore exactly what was asked for in this way
(`idle_after`). Users who ask only for bodies of entries that they hold leave no strays
(`strays_of_held`).
-/

namespace BlobCache

/-- The moment of a call that looks at the clock. -/
def Call.moment? : Call → Option Instant
  | release now _ => some now
  | sweep now _ => some now
  | _ => none

namespace Entry

/-- The body of the entry is mapped for nobody, and not idle. -/
def IsStray (e : Entry) : Prop :=
  e.isAttached ∧ e.isMapped ∧ e.references.count = 1 ∧ e.idleSince = none

/-- Whether a body that is mapped now is mapped for nobody. -/
def isUnheld (e : Entry) : Bool :=
  !e.isMapped && e.references.count == 1

variable {e : Entry}

private theorem not_isStray_of_ne_one (h : e.references.count ≠ 1) : ¬e.IsStray := by
  rintro ⟨-, -, hone, -⟩
  exact h hone

private theorem not_isStray_of_unmapped (h : e.isMapped = false) : ¬e.IsStray := by
  rintro ⟨-, hm, -⟩
  rw [h] at hm
  cases hm

/-- Giving back a reference leaves no stray: the body is idle from now on, or unmapped, or someone
else holds the entry. -/
private theorem not_isStray_released (e : Entry) (now : Instant) (left : RefCount) :
    ¬(e.released now left).IsStray := by
  rintro ⟨ha, hm, hone, hidle⟩
  rw [released_references] at hone
  rw [isAttached, released_owner] at ha
  by_cases hmapped : e.isMapped
  · have hall : left.count = 1 ∧ e.isAttached ∧ e.isMapped := ⟨hone, ha, hmapped⟩
    rw [released, if_pos hall] at hm hidle
    by_cases hg : e.eager
    · rw [if_pos hg] at hm
      cases hm
    · rw [if_neg hg] at hidle
      cases hidle
  · rw [released, if_neg fun hall => hmapped hall.2.2] at hm
    exact hmapped hm

/-- A body is idle since a release, or since before. -/
private theorem idleSince_released {now since : Instant} {left : RefCount}
    (h : (e.released now left).idleSince = some since) :
    since = now ∨ e.idleSince = some since := by
  rw [released] at h
  by_cases hall : left.count = 1 ∧ e.isAttached ∧ e.isMapped
  · rw [if_pos hall] at h
    by_cases hg : e.eager
    · rw [if_pos hg] at h
      cases h
    · rw [if_neg hg] at h
      exact .inl (Option.some.inj h).symm
  · rw [if_neg hall] at h
    exact .inr h

/-- Unmapping idle bodies makes no stray and ends none. -/
private theorem isStray_unmappedAt (e : Entry) (cutoff : Instant) :
    (e.unmappedAt cutoff).IsStray ↔ e.IsStray := by
  rw [unmappedAt]
  by_cases hidle : e.isIdleAt cutoff
  · have hsome := isSome_of_isIdleAt hidle
    rw [if_pos hidle]
    refine iff_of_false (not_isStray_of_unmapped rfl) ?_
    rintro ⟨-, -, -, hnone⟩
    rw [hnone] at hsome
    cases hsome
  · rw [if_neg hidle]

private theorem idleSince_unmappedAt (e : Entry) (cutoff : Instant) :
    (e.unmappedAt cutoff).idleSince = none ∨ (e.unmappedAt cutoff).idleSince = e.idleSince := by
  rw [unmappedAt]
  by_cases hidle : e.isIdleAt cutoff
  · rw [if_pos hidle]
    exact .inl rfl
  · rw [if_neg hidle]
    exact .inr rfl

end Entry

/-! ### The record -/

/-- For every identifier, whether the body was mapped when only the cache held the entry, and nobody
took a reference since. -/
abbrev Strays := EntryId → Bool

namespace Strays

/-- The record before the first call. -/
def blank : Strays := fun _ => false

/-- The record with another mark for one identifier. -/
def write (strays : Strays) (id : EntryId) (mark : Bool) : Strays :=
  fun other => if other = id then mark else strays other

/-- The record after a call on `c` with this answer. -/
def record {β : Type} (strays : Strays) (call : Call) (c : Cache β)
    (result : Except CacheError Answer) : Strays :=
  match call, result with
  | .add .., .ok (.entry id) => strays.write id false
  | .acquire id, .ok _ => strays.write id false
  | .body id, .ok _ => strays.write id (strays id || (c.get? id).any Entry.isUnheld)
  | _, _ => strays

/-- The record of a run that begins at `c`. -/
def after {β : Type} [Backend β] (strays : Strays) (c : Cache β) : List Call → Strays
  | [] => strays
  | call :: calls => (strays.record call c (call.run c).result).after (call.run c).state calls

@[simp]
theorem write_self (strays : Strays) (id : EntryId) (mark : Bool) :
    strays.write id mark id = mark := if_pos rfl

theorem write_of_ne (strays : Strays) {id other : EntryId} (h : other ≠ id) (mark : Bool) :
    strays.write id mark other = strays other := if_neg h

private theorem write_of_eq (strays : Strays) {id : EntryId} {mark : Bool} (h : strays id = mark) :
    strays.write id mark = strays := by
  funext other
  rw [write]
  by_cases hn : other = id
  · rw [if_pos hn, hn, h]
  · rw [if_neg hn]

@[simp]
theorem write_blank (id : EntryId) : blank.write id false = blank := write_of_eq blank rfl

end Strays

namespace Cache

variable {β : Type}

/-- The strays of a cache are those on record, and its other bodies are idle since some of the given
moments. -/
structure Watched (strays : Strays) (moments : List Instant) (c : Cache β) : Prop where
  stray_iff : ∀ {id e}, c.get? id = some e → (strays id ↔ e.IsStray)
  idle_mem : ∀ {id e since}, c.get? id = some e → e.idleSince = some since → since ∈ moments

namespace Watched

variable {strays strays' : Strays} {moments moments' : List Instant} {c c' : Cache β}
  {ledger : Ledger} {id : EntryId} {e : Entry}

/-! ### Elementary changes -/

theorem mono (h : c.Watched strays moments) (hsub : ∀ t ∈ moments, t ∈ moments') :
    c.Watched strays moments' :=
  ⟨h.stray_iff, fun he hi => hsub _ (h.idle_mem he hi)⟩

/-- Entries may change as long as they are strays if they were, and are idle since no new
moment. -/
private theorem of_get? (h : c.Watched strays moments)
    (hget : ∀ id e', c'.get? id = some e' → ∃ e, c.get? id = some e ∧
      (e'.IsStray ↔ e.IsStray) ∧ (e'.idleSince = none ∨ e'.idleSince = e.idleSince)) :
    c'.Watched strays moments where
  stray_iff he' := by
    obtain ⟨e, he, hstray, -⟩ := hget _ _ he'
    exact (h.stray_iff he).trans hstray.symm
  idle_mem he' hi := by
    obtain ⟨e, he, -, hnone | hsame⟩ := hget _ _ he'
    · rw [hnone] at hi
      cases hi
    · exact h.idle_mem he (hsame ▸ hi)

/-- What changes nothing but the backend changes nothing here. -/
theorem withBackend (h : c.Watched strays moments) (b : β) :
    (c.withBackend b).Watched strays moments :=
  ⟨h.stray_iff, h.idle_mem⟩

/-- One entry may change as long as the record follows it. -/
theorem change (h : c.Watched strays moments) (he : c.get? id = some e) {f : Entry → Entry}
    (hother : ∀ other, other ≠ id → strays' other = strays other)
    (hstray : strays' id ↔ (f e).IsStray) (hsub : ∀ t ∈ moments, t ∈ moments')
    (hidle : ∀ since, (f e).idleSince = some since → since ∈ moments') :
    (c.change id f).Watched strays' moments' := by
  constructor
  case stray_iff =>
    intro other e' he'
    obtain ⟨rfl, rfl⟩ | ⟨hn, he'⟩ := eq_or_of_get?_change he he'
    · exact hstray
    · rw [hother other hn]
      exact h.stray_iff he'
  case idle_mem =>
    intro other e' since he' hi
    obtain ⟨rfl, rfl⟩ | ⟨-, he'⟩ := eq_or_of_get?_change he he'
    · exact hidle since hi
    · exact hsub since (h.idle_mem he' hi)

/-- Marks change nothing here. -/
theorem mark (h : c.Watched strays moments) (he : c.get? id = some e) {f : Entry → Entry}
    (hf : ∀ e, (f e).owner = e.owner ∧ (f e).references = e.references ∧
      (f e).idleSince = e.idleSince ∧ (f e).mapping = e.mapping) :
    (c.change id f).Watched strays moments := by
  obtain ⟨ho, hr, hi, hm⟩ := hf e
  refine h.change he (fun _ _ => rfl) ?_ (fun _ ht => ht) fun since hs => h.idle_mem he (hi ▸ hs)
  rw [h.stray_iff he, Entry.IsStray, Entry.IsStray, Entry.isAttached, Entry.isAttached,
    Entry.isMapped, Entry.isMapped, ho, hr, hi, hm]

theorem retire (h : c.Watched strays moments) (id : EntryId) :
    (Cache.retire id c).state.Watched strays moments := by
  obtain ⟨-, -, hs⟩ | ⟨e, he, -, hs⟩ := retire_cases id c
  · rw [hs]
    exact h
  · rw [hs]
    exact h.mark he fun _ => ⟨rfl, rfl, rfl, rfl⟩

theorem markEager (h : c.Watched strays moments) (id : EntryId) :
    (Cache.markEager id c).state.Watched strays moments := by
  obtain ⟨-, -, hs⟩ | ⟨e, he, -, hs⟩ := markEager_cases id c
  · rw [hs]
    exact h
  · rw [hs]
    exact h.mark he fun _ => ⟨rfl, rfl, rfl, rfl⟩

/-- A new entry without a body is no stray. -/
theorem enlisted (h : c.Watched strays moments) (hs : c.arena.Sound) (he : e.isMapped = false)
    (hidle : e.idleSince = none) :
    (c.enlisted e).Watched (strays.write (c.arena.insert e).1 false) moments := by
  constructor
  case stray_iff =>
    intro other e' he'
    rw [get?_enlisted hs] at he'
    by_cases hn : other = (c.arena.insert e).1
    · rw [if_pos hn] at he'
      cases he'
      rw [hn, Strays.write_self]
      exact iff_of_false Bool.false_ne_true (Entry.not_isStray_of_unmapped he)
    · rw [if_neg hn] at he'
      rw [Strays.write_of_ne _ hn]
      exact h.stray_iff he'
  case idle_mem =>
    intro other e' since he' hi
    rw [get?_enlisted hs] at he'
    by_cases hn : other = (c.arena.insert e).1
    · rw [if_pos hn] at he'
      cases he'
      rw [hidle] at hi
      cases hi
    · rw [if_neg hn] at he'
      exact h.idle_mem he' hi

/-! ### Sweeps -/

/-- A sweep for idle bodies passes over strays. -/
theorem unmapIdle (h : c.Watched strays moments) (hs : c.Sound ledger []) (cutoff : Instant) :
    (Cache.unmapIdle cutoff c).state.Watched strays moments := by
  obtain ⟨-, -, hget⟩ := hs.unmapIdle_effect cutoff
  refine h.of_get? fun id e' he' => ?_
  rw [hget] at he'
  obtain ⟨e, he, rfl⟩ := Option.map_eq_some_iff.mp he'
  exact ⟨e, he, e.isStray_unmappedAt cutoff, e.idleSince_unmappedAt cutoff⟩

section Backend

variable [Backend β]

/-- A purge frees strays, and makes none. -/
theorem purge (h : c.Watched strays moments) (hs : c.Sound ledger []) (force : Bool) :
    (Cache.purge force c).state.Watched strays moments := by
  obtain ⟨-, -, hget⟩ := hs.purge_effect force
  refine h.of_get? fun id e' he' => ?_
  rw [hget] at he'
  by_cases hd : id ∈ c.doomed force
  · rw [if_pos hd] at he'
    obtain ⟨e, he, hleft⟩ := Option.bind_eq_some_iff.mp he'
    obtain ⟨left, hcount, hpos, rfl⟩ := Entry.eq_of_surrender? hleft
    -- what is left is held by someone, before and after
    refine ⟨e, he, iff_of_false ?_ (Entry.not_isStray_of_ne_one (by omega)), .inr rfl⟩
    rintro ⟨ha, -⟩
    cases ha
  · rw [if_neg hd] at he'
    exact ⟨e', he', Iff.rfl, .inr rfl⟩

/-! ### Calls -/

/-- A new entry is no stray, whatever was on record under its identifier. -/
theorem add (h : c.Watched strays moments) (hs : c.Sound ledger []) (labels : Labels)
    (data : Bytes) :
    ((Call.add labels data).run c).state.Watched
      (strays.record (.add labels data) c ((Call.add labels data).run c).result) moments := by
  rw [Call.run, Action.map_apply]
  obtain ⟨error, -, hr, hs'⟩ | ⟨filename, -, hr, hs'⟩ := add_cases labels data c
  · rw [hr, hs']
    exact h.withBackend _
  · rw [hr, hs']
    have hb := h.withBackend (Backend.save labels data c.backend).state
    have hnew : (c.stored filename labels).isMapped = false := rfl
    exact hb.enlisted hs.arena hnew rfl

/-- Taking a reference ends a stray. -/
theorem acquire (h : c.Watched strays moments) (hs : c.Sound ledger []) (id : EntryId) :
    ((Call.acquire id).run c).state.Watched
      (strays.record (.acquire id) c ((Call.acquire id).run c).result) moments := by
  rw [Call.run, Action.map_apply]
  obtain ⟨reason, hr, hs'⟩ | ⟨e, references, he, hi, hr, hs'⟩ := acquire_cases id c
  · rw [hr, hs']
    exact h
  · have hone := RefCount.increment_eq_ok hi
    have hpos := hs.references_pos he
    have hstray : ¬Entry.IsStray { e with references, idleSince := none } :=
      Entry.not_isStray_of_ne_one (by dsimp only; omega)
    rw [hr, hs']
    change Watched (strays.write id false) _ _
    refine h.change he (fun _ hn => Strays.write_of_ne _ hn _) ?_ (fun _ ht => ht)
      fun _ hi => absurd hi (by simp)
    rw [Strays.write_self]
    exact iff_of_false Bool.false_ne_true hstray

/-- Giving a reference back leaves no stray, and a body may be idle from that moment on. -/
theorem release (h : c.Watched strays moments) (now : Instant) (id : EntryId) :
    ((Call.release now id).run c).state.Watched
      (strays.record (.release now id) c ((Call.release now id).run c).result)
      (moments ++ [now]) := by
  have hsub : ∀ t ∈ moments, t ∈ moments ++ [now] := fun t ht => List.mem_append_left _ ht
  rw [Call.run, Action.map_apply]
  obtain ⟨reason, hr, hs⟩ | ⟨e, he, -, -, hr, hs⟩ | ⟨e, left, he, hleft, hpos, hr, hs⟩ :=
    release_cases now id c
  · rw [hr, hs]
    exact h.mono hsub
  · rw [hr, hs]
    refine (h.of_get? fun other e' he' => ?_).mono hsub
    exact ⟨e', (get?_free_eq_some.mp he').2, Iff.rfl, .inr rfl⟩
  · rw [hr, hs]
    have hheld : ¬e.IsStray := Entry.not_isStray_of_ne_one (by omega)
    refine h.change he (fun _ _ => rfl) ?_ hsub fun since hi => ?_
    · exact (h.stray_iff he).trans (iff_of_false hheld (e.not_isStray_released now left))
    · obtain rfl | hi := Entry.idleSince_released hi
      · exact List.mem_append_right _ (List.mem_singleton_self _)
      · exact hsub since (h.idle_mem he hi)

/-- Asking for a body makes a stray of it if only the cache holds the entry. -/
theorem body (h : c.Watched strays moments) (id : EntryId) :
    ((Call.body id).run c).state.Watched
      (strays.record (.body id) c ((Call.body id).run c).result) moments := by
  rw [Call.run, Action.map_apply]
  dsimp only
  cases he : c.get? id with
  | none =>
    obtain ⟨⟨reason, hr⟩, hs⟩ := body_of_get?_eq_none he
    rw [hr, hs]
    exact h
  | some e =>
    obtain ⟨data, hm, hr, hs⟩ | ⟨-, -, ⟨reason, hr⟩, hs⟩ | ⟨hm, ho, hload⟩ := body_of_get? he
    · -- the body is mapped already
      have hheld : e.isUnheld = false := by rw [Entry.isUnheld, Entry.isMapped, hm]; rfl
      have hsame : strays.record (.body id) c (.ok (.body data)) = strays := by
        change strays.write id (strays id || (c.get? id).any Entry.isUnheld) = strays
        rw [he, Option.any_some, hheld, Bool.or_false, Strays.write_of_eq strays rfl]
      rw [hr, hs, Except.map, hsame]
      exact h
    · rw [hr, hs]
      exact h
    · obtain ⟨error, -, hr, hs⟩ | ⟨data, -, hr, hs⟩ := hload
      · rw [hr, hs]
        exact h.withBackend _
      · have hmapped : e.isMapped = false := by rw [Entry.isMapped, hm]; rfl
        have hbefore : strays id = false :=
          Bool.eq_false_iff.mpr (mt (h.stray_iff he).mp (Entry.not_isStray_of_unmapped hmapped))
        have ha : e.isAttached := Entry.isAttached_of_owner ho
        rw [hr, hs]
        change Watched (strays.write id (strays id || (c.get? id).any Entry.isUnheld)) _ _
        have hb := h.withBackend (Backend.loadBody e.filename c.backend).state
        refine hb.change he (fun _ hn => Strays.write_of_ne _ hn _) ?_ (fun _ ht => ht)
          fun _ hi => absurd hi (by simp)
        rw [Strays.write_self, hbefore, Bool.false_or, he, Option.any_some, Entry.isUnheld,
          hmapped, Bool.not_false, Bool.true_and, beq_iff_eq]
        exact ⟨fun hone => ⟨ha, rfl, hone, rfl⟩, fun hstray => hstray.2.2.1⟩

/-- Every call keeps a cache watched. -/
theorem run (h : c.Watched strays moments) (hs : c.Sound ledger []) (call : Call) :
    (call.run c).state.Watched (strays.record call c (call.run c).result)
      (moments ++ call.moment?.toList) := by
  have hsub : ∀ t ∈ moments, t ∈ moments ++ call.moment?.toList := fun t ht =>
    List.mem_append_left _ ht
  cases call with
  | add labels data => exact (h.add hs labels data).mono hsub
  | acquire id => exact (h.acquire hs id).mono hsub
  | release now id => exact h.release now id
  | retire id =>
    rw [Call.run, Action.map_apply]
    exact (h.retire id).mono hsub
  | markEager id =>
    rw [Call.run, Action.map_apply]
    exact (h.markEager id).mono hsub
  | body id => exact (h.body id).mono hsub
  | unmapIdle cutoff =>
    rw [Call.run, Action.map_apply]
    exact (h.unmapIdle hs cutoff).mono hsub
  | purge force =>
    rw [Call.run, Action.map_apply]
    exact (h.purge hs force).mono hsub
  | sweep now maxIdle =>
    rw [Call.run]
    cases hb : (sweep? now maxIdle : Option (Action (Cache β) SweepReport)) with
    | none => exact h.mono hsub
    | some both =>
      obtain ⟨cutoff, hstate⟩ := hs.sweep_effect hb
      dsimp only
      rw [Action.map_apply, hstate]
      exact ((h.unmapIdle hs cutoff).purge (hs.unmapIdle cutoff).2 false).mono hsub

/-- A run keeps a cache watched. -/
theorem after (h : c.Watched strays moments) (hs : c.Sound ledger []) (calls : List Call) :
    (c.after calls).Watched (strays.after c calls) (moments ++ calls.filterMap Call.moment?) := by
  induction calls generalizing strays moments ledger c with
  | nil =>
    rw [List.filterMap_nil, List.append_nil]
    exact h
  | cons call calls ih =>
    have hrest := ih (h.run hs call) (hs.run call)
    rw [List.append_assoc] at hrest
    have hmoments : (call :: calls).filterMap Call.moment? =
        call.moment?.toList ++ calls.filterMap Call.moment? := by
      rw [List.filterMap_cons]
      cases call.moment? <;> rfl
    rw [hmoments]
    exact hrest

end Backend

end Watched

/-! ### What sweeps find -/

/-- The bodies that sweeps for idle ones will find, and those that they will not, according to the
record. -/
structure Reclaims (strays : Strays) (moments : List Instant) (c : Cache β) : Prop where
  /-- A body that is mapped for nobody is idle, unless it is a stray. -/
  idle_iff : ∀ id e, c.get? id = some e → e.isAttached → e.isMapped → e.references.count = 1 →
    (e.idleSince.isSome ↔ strays id = false)
  /-- A sweep that takes all moments for long ago leaves no body mapped for nobody, except
  strays. -/
  mapped_iff : ∀ cutoff, (∀ now ∈ moments, now ≤ cutoff) → ∀ id ∈ c.members, ∀ e,
    (unmapIdle cutoff c).state.get? id = some e → e.references.count = 1 →
      (e.isMapped ↔ strays id)

/-- Sweeps find in a watched cache what is not a stray. Whatever is mapped and held by nobody else
is a stray or has an idle time, which is one of the moments of the run (`Watched.idle_mem`). -/
theorem Watched.reclaims {strays : Strays} {moments : List Instant} {c : Cache β} {ledger : Ledger}
    (h : c.Watched strays moments) (hs : c.Sound ledger []) : c.Reclaims strays moments := by
  constructor
  case idle_iff =>
    intro id e he ha hm hone
    rw [Bool.eq_false_iff, Ne, h.stray_iff he, Entry.IsStray, and_iff_right ha, and_iff_right hm,
      and_iff_right hone, ← Ne, Option.ne_none_iff_isSome]
  case mapped_iff =>
    intro cutoff hcutoff id hid e' he' hone
    obtain ⟨-, -, hget⟩ := hs.unmapIdle_effect cutoff
    rw [(h.unmapIdle hs cutoff).stray_iff he']
    refine ⟨fun hm => ?_, fun hstray => hstray.2.1⟩
    rw [hget] at he'
    obtain ⟨e, he, rfl⟩ := Option.map_eq_some_iff.mp he'
    obtain ⟨e₀, he₀, ho, -⟩ := hs.exists_of_listed hid
    obtain rfl : e = e₀ := Option.some.inj (he.symm.trans he₀)
    have ha : e.isAttached := Entry.isAttached_of_owner ho
    cases hi : e.idleSince with
    | none =>
      rw [Entry.unmappedAt_of_idleSince hi] at hm hone ⊢
      exact ⟨ha, hm, hone, hi⟩
    | some since =>
      -- the body has been idle for long enough, and is gone
      have hidle : e.isIdleAt cutoff := by
        rw [Entry.isIdleAt, hi]
        exact decide_eq_true (hcutoff since (h.idle_mem he hi))
      rw [Entry.unmappedAt, if_pos hidle] at hm
      cases hm

variable [Backend β]

omit [Backend β] in
/-- A cache that lists nothing has no bodies. -/
theorem Watched.fresh (id : CacheId) (backend : β) (hint : Nat) :
    (fresh id backend hint).Watched Strays.blank [] where
  stray_iff he := by simp [Cache.fresh, Cache.get?, Arena.get?] at he
  idle_mem he := by simp [Cache.fresh, Cache.get?, Arena.get?] at he

/-- An object that the cache finds is listed without its body. -/
theorem Watched.enroll {c : Cache β} (h : c.Watched Strays.blank []) (hs : c.Sound Ledger.blank [])
    (filename : String) : (enroll filename c).state.Watched Strays.blank [] := by
  obtain ⟨-, ⟨error, -, hstate⟩ | ⟨object, -, hstate⟩⟩ := enroll_cases filename c
  · rw [hstate]
    exact h.withBackend _
  · have hb := h.withBackend (Backend.load filename c.backend).state
    have hnew : (c.loaded filename object.labels).isMapped = false := rfl
    have hlisted := hb.enlisted (hs.withBackend _).arena hnew rfl
    rw [Strays.write_blank] at hlisted
    rw [hstate]
    exact hlisted

/-- The bodies of a cache that opens are not mapped. -/
theorem watched_openOver {id : CacheId} {backend : β} {hint : Nat}
    (h : (openOver id backend hint).result = .ok ()) :
    (openOver id backend hint).state.Watched Strays.blank [] := by
  obtain ⟨names, -, hs⟩ := openOver_of_ok h
  rw [hs]
  have hsound := (Sound.fresh id backend hint).withBackend (Backend.list backend).state
  have hwatched := (Watched.fresh id backend hint).withBackend (Backend.list backend).state
  exact (Action.forM_rule Cache.enroll
    (P := fun _ c => c.Sound Ledger.blank [] ∧ c.Watched Strays.blank [])
    (fun name _ c ⟨hc, hw⟩ => ⟨(enroll_cases name c).1, hc.enroll name, hw.enroll hc name⟩) names
    ⟨hsound, hwatched⟩).2.2

/-! ### Users who hold what they ask for -/

/-- Bodies are asked for only of entries that are, by the accounts, the user's to give back. -/
def AsksHeld (ledger : Ledger) (c : Cache β) : List Call → Prop
  | [] => True
  | call :: calls =>
    (∀ id, call = .body id → 0 < (ledger id).share) ∧
      AsksHeld (ledger.record call (call.run c).result) (call.run c).state calls

/-- An entry whose body is mapped for nobody is not its user's to give back. -/
private theorem Sound.isUnheld_eq_false {ledger : Ledger} {c : Cache β} (hs : c.Sound ledger [])
    {id : EntryId} {e : Entry} (he : c.get? id = some e) (hheld : 0 < (ledger id).share)
    {data : Bytes} (hr : (Cache.body id c).result = .ok data) : e.isUnheld = false := by
  obtain ⟨data, hm, -⟩ | ⟨-, -, ⟨reason, hfails⟩, -⟩ | ⟨-, ho, -⟩ := body_of_get? he
  · rw [Entry.isUnheld, Entry.isMapped, hm]
    rfl
  · rw [hfails] at hr
    cases hr
  · -- the cache's own reference is one more
    have hcount := hs.references_eq he
    rw [if_pos (Entry.isAttached_of_owner ho)] at hcount
    have hne : e.references.count ≠ 1 := by omega
    rw [Entry.isUnheld, beq_eq_false_iff_ne.mpr hne, Bool.and_false]

/-- A body that a holder of the entry asks for is no stray. -/
private theorem Sound.record_of_held {strays : Strays} {ledger : Ledger} {c : Cache β}
    (hs : c.Sound ledger []) {call : Call} (hheld : ∀ id, call = .body id → 0 < (ledger id).share)
    (hnone : ∀ id, strays id = false) (id : EntryId) :
    strays.record call c (call.run c).result id = false := by
  have hwrite : ∀ other, strays.write other false id = false := fun other => by
    rw [Strays.write_of_eq strays (hnone other), hnone]
  cases call with
  | add labels data =>
    rw [Call.run, Action.map_apply]
    cases (Cache.add labels data c).result with
    | error e => exact hnone id
    | ok new => exact hwrite new
  | acquire other =>
    rw [Call.run, Action.map_apply]
    cases (Cache.acquire other c).result with
    | error e => exact hnone id
    | ok count => exact hwrite other
  | body other =>
    rw [Call.run, Action.map_apply]
    dsimp only
    cases hr : (Cache.body other c).result with
    | error e => exact hnone id
    | ok data =>
      have hunheld : (c.get? other).any Entry.isUnheld = false := by
        cases he : c.get? other with
        | none => rfl
        | some e => exact hs.isUnheld_eq_false he (hheld other rfl) hr
      change strays.write other (strays other || (c.get? other).any Entry.isUnheld) id = false
      rw [hunheld, hnone, Bool.or_false]
      exact hwrite other
  | _ => exact hnone id

/-- Users who ask only for the bodies of entries that they hold leave no strays. -/
theorem strays_of_held {strays : Strays} {ledger : Ledger} {c : Cache β} (hs : c.Sound ledger [])
    (hnone : ∀ id, strays id = false) {calls : List Call} (hheld : c.AsksHeld ledger calls)
    (id : EntryId) : strays.after c calls id = false := by
  induction calls generalizing strays ledger c with
  | nil => exact hnone id
  | cons call calls ih => exact ih (hs.run call) (hs.record_of_held hheld.1 hnone) hheld.2

/-! ### Runs -/

/-- **Idle bodies and strays.** In every run the bodies that are mapped for nobody are idle, and
found by sweeps, except those that were asked for when only the cache held the entry and that nobody
has held since. There are no such strays where bodies are asked for only by users who hold the
entry. Which bodies are strays is on record in `Strays`; that there are no others is kept by every
call (`Watched.run`), and sweeps go by the idle time alone (`Watched.reclaims`, `strays_of_held`).
-/
theorem idle_after {id : CacheId} {backend : β} {hint : Nat}
    (hopen : (openOver id backend hint).result = .ok ()) (calls : List Call) :
    ((openOver id backend hint).state.after calls).Reclaims
        (Strays.blank.after (openOver id backend hint).state calls)
        (calls.filterMap Call.moment?) ∧
      ((openOver id backend hint).state.AsksHeld Ledger.blank calls →
        ∀ entry, Strays.blank.after (openOver id backend hint).state calls entry = false) := by
  have hs := sound_openOver hopen
  have hw := (watched_openOver hopen).after hs calls
  rw [List.nil_append] at hw
  exact ⟨hw.reclaims (hs.after calls), fun hheld => strays_of_held hs (fun _ => rfl) hheld⟩

/-- An entry is added, given back and asked for its body. -/
theorem idle_after_asked :
    (openOver ⟨1⟩ smallStore 2).result = .ok () ∧
      let calls : List Call := [.add ⟨[("k", "v")]⟩ [120], .release .epoch ⟨1, 0⟩, .body ⟨1, 0⟩]
      let opened := (openOver ⟨1⟩ smallStore 2).state
      (opened.after calls).Reclaims (Strays.blank.after opened calls) [.epoch] ∧
        (opened.AsksHeld Ledger.blank calls →
          ∀ entry, Strays.blank.after opened calls entry = false) := by
  have hopen : (openOver ⟨1⟩ smallStore 2).result = .ok () := by rfl
  exact ⟨hopen, idle_after hopen [.add ⟨[("k", "v")]⟩ [120], .release .epoch ⟨1, 0⟩, .body ⟨1, 0⟩]⟩

/-- This body is mapped for nobody and not idle, and the latest sweep for idle bodies that there can
be leaves it mapped. -/
theorem mapped_after_latest_sweep :
    let calls : List Call := [.add ⟨[("k", "v")]⟩ [120], .release .epoch ⟨1, 0⟩, .body ⟨1, 0⟩]
    let c := (openOver ⟨1⟩ smallStore 2).state.after calls
    (openOver ⟨1⟩ smallStore 2).result = .ok () ∧
      (∀ now ∈ calls.filterMap Call.moment?, now ≤ Instant.latest) ∧ ⟨1, 0⟩ ∈ c.members ∧
      (∃ e, c.get? ⟨1, 0⟩ = some e ∧ e.isAttached ∧ e.isMapped ∧ e.references.count = 1 ∧
        e.idleSince = none) ∧
      ∃ e, (unmapIdle Instant.latest c).state.get? ⟨1, 0⟩ = some e ∧ e.isMapped ∧
        e.references.count = 1 := by
  refine ⟨by rfl, by decide, by decide +kernel, ⟨_, by rfl, by rfl, by rfl, by rfl, by rfl⟩,
    ⟨_, by rfl, by rfl, by rfl⟩⟩

end Cache

end BlobCache
