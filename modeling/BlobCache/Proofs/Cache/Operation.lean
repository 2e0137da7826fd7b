import BlobCache.Cache.Sweep
import BlobCache.Proofs.Action
import BlobCache.Proofs.Arena

/-!
# What the operations do to a cache

Each operation on an entry either changes nothing, or changes the one entry (`Cache.change`), or
frees it (`Cache.free`); adding an entry lists it behind the others (`Cache.enlisted`). One lemma
for each operation says which of these it does, when, and with which answer; no later proof opens
an operation again, except to read the wording of an error.

* `acquire_cases`, `release_cases`, `retire_cases`, `markEager_cases`, `body_cases`, `add_cases`
  are exhaustive.
* `letGo_last` and `letGo_held` are about entries that someone holds; there is no other case for
  entries of a consistent cache.
-/

namespace BlobCache

namespace RefCount

/-- A count is its number. -/
theorem eq_of_count_eq {r s : RefCount} (h : r.count = s.count) : r = s := by
  cases r
  cases s
  cases h
  rfl

/-- A count below the maximum takes one more reference. -/
theorem increment_eq_ok {r s : RefCount} (h : r.increment = .ok s) : s.count = r.count + 1 := by
  unfold increment at h
  split at h
  · cases h
    rfl
  · cases h

/-- Giving back is refused at zero only. -/
theorem decrement_cases (r : RefCount) :
    (r.count = 0 ∧ r.decrement = .error .underflow) ∨
      ∃ s, r.decrement = .ok s ∧ s.count + 1 = r.count := by
  match r with
  | ⟨0, _⟩ => exact .inl ⟨rfl, rfl⟩
  | ⟨n + 1, h⟩ => exact .inr ⟨⟨n, Nat.le_of_succ_le h⟩, rfl, rfl⟩

end RefCount

namespace Entry

/-- An entry with an owner is attached. -/
theorem isAttached_of_owner {e : Entry} {owner : CacheId} (ho : e.owner = some owner) :
    e.isAttached := by
  rw [isAttached, ho]
  rfl

/-- An entry with one reference given back, `left` being what remains. If only its cache holds it
from now on, a mapped body becomes idle, or is unmapped when the entry is eager. -/
def released (e : Entry) (now : Instant) (left : RefCount) : Entry :=
  if left.count = 1 ∧ e.isAttached ∧ e.isMapped then
    if e.eager then { e with references := left }.unmapped
    else { e with references := left, idleSince := some now }
  else { e with references := left }

@[simp]
theorem released_references (e : Entry) (now : Instant) (left : RefCount) :
    (e.released now left).references = left := by
  rw [released]
  split
  · split <;> rfl
  · rfl

@[simp]
theorem released_owner (e : Entry) (now : Instant) (left : RefCount) :
    (e.released now left).owner = e.owner := by
  rw [released]
  split
  · split <;> rfl
  · rfl

/-- An entry is idle after a release if it was before, or because its cache is the only holder left
and still has the body. -/
theorem idle_of_released {now : Instant} {left : RefCount} {e : Entry}
    (h : (e.released now left).idleSince.isSome) :
    e.idleSince.isSome ∨
      (left.count = 1 ∧ e.isAttached ∧ (e.released now left).isMapped) := by
  by_cases hall : left.count = 1 ∧ e.isAttached ∧ e.isMapped
  · by_cases hg : e.eager
    · simp [released, hall, hg, unmapped] at h
    · refine .inr ⟨hall.1, hall.2.1, ?_⟩
      rw [released, if_pos hall, if_neg hg]
      exact hall.2.2
  · exact .inl (by simpa only [released, if_neg hall] using h)

/-- An entry that left the list, with the cache's reference given back. -/
def surrendered (e : Entry) (left : RefCount) : Entry :=
  { e.detached with references := left }

end Entry

namespace Cache

variable {β : Type}

/-! ### Changes to a cache -/

/-- The cache with one entry changed. -/
def change (c : Cache β) (id : EntryId) (f : Entry → Entry) : Cache β :=
  { c with arena := c.arena.update id f }

/-- The cache without an entry. -/
def free (c : Cache β) (id : EntryId) : Cache β :=
  { c with arena := c.arena.remove id }

/-- The cache with a new entry behind the others. -/
def enlisted (c : Cache β) (e : Entry) : Cache β :=
  { c with
    arena := (c.arena.insert e).2
    members := c.members ++ [(c.arena.insert e).1] }

/-- The cache with another state of its backend. -/
def withBackend (c : Cache β) (b : β) : Cache β :=
  { c with backend := b }

@[simp]
theorem change_backend (c : Cache β) (id : EntryId) (f : Entry → Entry) :
    (c.change id f).backend = c.backend := rfl

@[simp]
theorem change_members (c : Cache β) (id : EntryId) (f : Entry → Entry) :
    (c.change id f).members = c.members := rfl

@[simp]
theorem free_members (c : Cache β) (id : EntryId) : (c.free id).members = c.members := rfl

@[simp]
theorem withBackend_get? (c : Cache β) (b : β) (id : EntryId) :
    (c.withBackend b).get? id = c.get? id := rfl

/-- The entries after one of them changed. -/
theorem get?_change (c : Cache β) (id other : EntryId) (f : Entry → Entry) :
    (c.change id f).get? other = if other = id then (c.get? id).map f else c.get? other :=
  Arena.get?_update c.arena id other f

/-- The entry that changed. -/
theorem get?_change_self {c : Cache β} {id : EntryId} {e : Entry} (he : c.get? id = some e)
    (f : Entry → Entry) : (c.change id f).get? id = some (f e) := by
  rw [get?_change, if_pos rfl, he, Option.map_some]

/-- After a change, an entry is the changed one or was there before. -/
theorem eq_or_of_get?_change {c : Cache β} {id other : EntryId} {e e' : Entry}
    (he : c.get? id = some e) {f : Entry → Entry} (h : (c.change id f).get? other = some e') :
    (other = id ∧ e' = f e) ∨ (other ≠ id ∧ c.get? other = some e') := by
  rw [get?_change] at h
  by_cases hn : other = id
  · rw [if_pos hn, he] at h
    cases h
    exact .inl ⟨hn, rfl⟩
  · rw [if_neg hn] at h
    exact .inr ⟨hn, h⟩

/-- A change makes no entry and takes none away. -/
theorem get?_change_eq_none {c : Cache β} {id other : EntryId} {f : Entry → Entry} :
    (c.change id f).get? other = none ↔ c.get? other = none := by
  rw [get?_change]
  by_cases hn : other = id
  · rw [if_pos hn, hn, Option.map_eq_none_iff]
  · rw [if_neg hn]

/-- The entries after one of them was freed. -/
theorem get?_free (c : Cache β) (id other : EntryId) :
    (c.free id).get? other = if other = id then none else c.get? other :=
  Arena.get?_remove c.arena id other

/-- What is there after an entry was freed was there before. -/
theorem get?_free_eq_some {c : Cache β} {id other : EntryId} {e : Entry} :
    (c.free id).get? other = some e ↔ other ≠ id ∧ c.get? other = some e := by
  rw [get?_free]
  by_cases hn : other = id
  · simp [hn]
  · simp [hn]

/-- The entries after a new one was listed. -/
theorem get?_enlisted {c : Cache β} (h : c.arena.Sound) (e : Entry) (other : EntryId) :
    (c.enlisted e).get? other =
      if other = (c.arena.insert e).1 then some e else c.get? other :=
  h.get?_insert e other

/-- The backend has no part in what a new entry comes under. -/
theorem get?_withBackend_enlisted {c : Cache β} (h : c.arena.Sound) (b : β) (e : Entry)
    (other : EntryId) :
    ((c.withBackend b).enlisted e).get? other =
      if other = (c.arena.insert e).1 then some e else c.get? other :=
  h.get?_insert e other

/-! ### Operations on one entry -/

theorem onBackend_apply {α : Type} (x : Action β α) (c : Cache β) :
    onBackend x c =
      ⟨(x c.backend).result, c.withBackend (x c.backend).state, (x c.backend).log⟩ := rfl

theorem updateEntry_apply (id : EntryId) (f : Entry → Entry) (c : Cache β) :
    updateEntry id f c = ⟨.ok (), c.change id f, []⟩ := rfl

theorem live_of_get? {c : Cache β} {id : EntryId} {e : Entry} (h : c.get? id = some e)
    (operation : String) : live operation id c = ⟨.ok e, c, []⟩ := by
  rw [live]
  rw [Action.bind_apply, Action.get_apply]
  simp [h, Action.pure_apply]

theorem live_of_get?_eq_none {c : Cache β} {id : EntryId} (h : c.get? id = none)
    (operation : String) :
    (live operation id c).result = .error (.integrity s!"{operation} on freed entry {id.text}") ∧
      (live operation id c).state = c := by
  rw [live]
  rw [Action.bind_apply, Action.get_apply]
  simp [h, Action.violation_apply]

/-- An operation that starts with `live` fails under an identifier that leads nowhere. -/
theorem live_bind_of_get?_eq_none {α : Type} {c : Cache β} {id : EntryId} (h : c.get? id = none)
    (operation : String) (f : Entry → Action (Cache β) α) :
    ((live operation id >>= f) c).result =
        .error (.integrity s!"{operation} on freed entry {id.text}") ∧
      ((live operation id >>= f) c).state = c := by
  obtain ⟨hr, hs⟩ := live_of_get?_eq_none h operation
  rw [Action.bind_apply, hr]
  exact ⟨rfl, hs⟩

/-- An operation that starts with `live` goes on with the entry, if there is one. -/
theorem live_bind_of_get? {α : Type} {c : Cache β} {id : EntryId} {e : Entry}
    (h : c.get? id = some e) (operation : String) (f : Entry → Action (Cache β) α) :
    (live operation id >>= f) c = f e c := by
  rw [Action.bind_apply, live_of_get? h]
  rfl

/-- An entry that can take a reference is acquired. -/
theorem acquire_of_increment {c : Cache β} {id : EntryId} {e : Entry} {references : RefCount}
    (h : c.get? id = some e) (hi : e.references.increment = .ok references) :
    (acquire id c).result = .ok references.count ∧
      (acquire id c).state = c.change id fun e => { e with references, idleSince := none } := by
  rw [acquire, live_bind_of_get? h, hi]
  exact ⟨rfl, rfl⟩

/-- `acquire` fails and changes nothing, or the entry has one more reference and is not idle. -/
theorem acquire_cases (id : EntryId) (c : Cache β) :
    (∃ reason, (acquire id c).result = .error (.integrity reason) ∧ (acquire id c).state = c) ∨
      ∃ e references, c.get? id = some e ∧ e.references.increment = .ok references ∧
        (acquire id c).result = .ok references.count ∧
        (acquire id c).state = c.change id fun e => { e with references, idleSince := none } := by
  cases h : c.get? id with
  | none => exact .inl ⟨_, live_bind_of_get?_eq_none h _ _⟩
  | some e =>
    cases hi : e.references.increment with
    | error refusal =>
      rw [acquire, live_bind_of_get? h, hi]
      exact .inl ⟨_, rfl, rfl⟩
    | ok references => exact .inr ⟨e, references, rfl, hi, acquire_of_increment h hi⟩

/-- `retire` fails and changes nothing, or marks the entry. -/
theorem retire_cases (id : EntryId) (c : Cache β) :
    (∃ reason, (retire id c).result = .error (.integrity reason) ∧ (retire id c).state = c) ∨
      ∃ e, c.get? id = some e ∧ (retire id c).result = .ok () ∧
        (retire id c).state = c.change id fun e => { e with retired := true } := by
  rw [retire]
  cases h : c.get? id with
  | none => exact .inl ⟨_, live_bind_of_get?_eq_none h _ _⟩
  | some e =>
    rw [live_bind_of_get? h]
    exact .inr ⟨e, rfl, rfl, rfl⟩

/-- `markEager` fails and changes nothing, or marks the entry. -/
theorem markEager_cases (id : EntryId) (c : Cache β) :
    (∃ reason, (markEager id c).result = .error (.integrity reason) ∧
        (markEager id c).state = c) ∨
      ∃ e, c.get? id = some e ∧ (markEager id c).result = .ok () ∧
        (markEager id c).state = c.change id fun e => { e with eager := true } := by
  rw [markEager]
  cases h : c.get? id with
  | none => exact .inl ⟨_, live_bind_of_get?_eq_none h _ _⟩
  | some e =>
    rw [live_bind_of_get? h]
    exact .inr ⟨e, rfl, rfl, rfl⟩

/-! ### Giving references back -/

/-- There is nothing to give back without references. -/
theorem dropReference_none {e : Entry} (h : e.references.count = 0) (id : EntryId) (c : Cache β) :
    (∃ reason, (dropReference id e c).result = .error (.integrity reason)) ∧
      (dropReference id e c).state = c := by
  obtain ⟨-, hd⟩ | ⟨left, -, hcount⟩ := e.references.decrement_cases
  · unfold dropReference
    rw [hd]
    exact ⟨⟨_, rfl⟩, rfl⟩
  · omega

/-- The last reference frees the entry. -/
theorem dropReference_last {e : Entry} (h : e.references.count = 1) (id : EntryId) (c : Cache β) :
    (dropReference id e c).result = .ok .destroyed ∧ (dropReference id e c).state = c.free id := by
  obtain ⟨h0, -⟩ | ⟨left, hd, hcount⟩ := e.references.decrement_cases
  · omega
  · have hz : left.count = 0 := by omega
    rw [dropReference]
    simp only [hd, hz, if_true]
    exact ⟨rfl, rfl⟩

/-- A reference that is not the last one leaves the others. -/
theorem dropReference_held {e : Entry} (h : 1 < e.references.count) (id : EntryId)
    (c : Cache β) :
    ∃ left, left.count + 1 = e.references.count ∧
      (dropReference id e c).result = .ok (.alive left.count) ∧
      (dropReference id e c).state = c.change id fun e => { e with references := left } := by
  obtain ⟨h0, -⟩ | ⟨left, hd, hcount⟩ := e.references.decrement_cases
  · omega
  · have hz : left.count ≠ 0 := by omega
    refine ⟨left, hcount, ?_⟩
    rw [dropReference]
    simp only [hd, hz, if_false]
    exact ⟨rfl, rfl⟩

/-- Two ways to change an entry that agree on it are the same change. -/
theorem change_congr {c : Cache β} {id : EntryId} {e : Entry} (he : c.get? id = some e)
    {f g : Entry → Entry} (h : f e = g e) : c.change id f = c.change id g := by
  have he' : c.arena.get? id = some e := he
  unfold change Arena.update
  simp only [he', h]

/-- Two changes to one entry are one change. -/
theorem change_change (c : Cache β) (id : EntryId) (f g : Entry → Entry) :
    (c.change id f).change id g = c.change id (g ∘ f) := by
  unfold change
  simp only [Arena.update_update]

/-- What becomes of an attached entry when its cache is the only holder left. -/
theorem becomeIdle_apply (now : Instant) {c : Cache β} {id : EntryId} {e : Entry}
    (he : c.get? id = some e) (left : RefCount) (h : left.count = 1 ∧ e.isAttached) :
    (becomeIdle now id e (c.change id fun e => { e with references := left })).result = .ok () ∧
      (becomeIdle now id e (c.change id fun e => { e with references := left })).state =
        c.change id (Entry.released · now left) := by
  rw [becomeIdle]
  by_cases hm : e.isMapped
  · have hall : left.count = 1 ∧ e.isAttached ∧ e.isMapped := ⟨h.1, h.2, hm⟩
    by_cases hg : e.eager
    · rw [if_pos hm, if_pos hg]
      refine ⟨rfl, (change_change c id _ _).trans (change_congr he ?_)⟩
      simp [Entry.released, hall, hg]
    · rw [if_pos hm, if_neg hg]
      refine ⟨rfl, (change_change c id _ _).trans (change_congr he ?_)⟩
      simp [Entry.released, hall, hg]
  · rw [if_neg hm]
    refine ⟨rfl, change_congr he ?_⟩
    simp [Entry.released, hm]

/-- A reference that is not the last one is given back. -/
theorem release_of_held (now : Instant) {c : Cache β} {id : EntryId} {e : Entry}
    (he : c.get? id = some e) (hgt : 1 < e.references.count) :
    ∃ left, left.count + 1 = e.references.count ∧
      (release now id c).result = .ok (.alive left.count) ∧
      (release now id c).state = c.change id (Entry.released · now left) := by
  have hguard : ¬(e.references.count = 1 ∧ e.isAttached) := fun h => by omega
  obtain ⟨left, hcount, hr, hs⟩ := dropReference_held hgt id c
  refine ⟨left, hcount, ?_⟩
  rw [release, live_bind_of_get? he, if_neg hguard, Action.bind_apply, hr, hs]
  by_cases hidle : left.count = 1 ∧ e.isAttached
  · obtain ⟨hb, hbs⟩ := becomeIdle_apply now he left hidle
    simp only [hidle.1, hidle.2, and_self, if_true, Action.bind_apply, hb, hbs, Action.pure_apply]
  · have hleft : ¬(Liveness.alive left.count = .alive 1 ∧ e.isAttached) := by
      simpa using hidle
    have hsame : (c.change id fun e => { e with references := left }) =
        c.change id (Entry.released · now left) :=
      change_congr he (by rw [Entry.released, if_neg fun hm => hidle ⟨hm.1, hm.2.1⟩])
    dsimp only
    rw [if_neg hleft]
    exact ⟨rfl, hsame⟩

/-- `release` fails and changes nothing; or frees an entry that the cache does not list; or leaves
the entry with one reference less. -/
theorem release_cases (now : Instant) (id : EntryId) (c : Cache β) :
    (∃ reason, (release now id c).result = .error (.integrity reason) ∧
        (release now id c).state = c) ∨
      (∃ e, c.get? id = some e ∧ e.references.count = 1 ∧ e.isAttached = false ∧
        (release now id c).result = .ok .destroyed ∧ (release now id c).state = c.free id) ∨
      ∃ e left, c.get? id = some e ∧ left.count + 1 = e.references.count ∧ 0 < left.count ∧
        (release now id c).result = .ok (.alive left.count) ∧
        (release now id c).state = c.change id (Entry.released · now left) := by
  cases h : c.get? id with
  | none => exact .inl ⟨_, live_bind_of_get?_eq_none h _ _⟩
  | some e =>
    by_cases hgt : 1 < e.references.count
    · obtain ⟨left, hcount, hr, hs⟩ := release_of_held now h hgt
      exact .inr (.inr ⟨e, left, rfl, hcount, by omega, hr, hs⟩)
    rw [release, live_bind_of_get? h]
    by_cases hguard : e.references.count = 1 ∧ e.isAttached
    · rw [if_pos hguard]
      exact .inl ⟨_, rfl, rfl⟩
    rw [if_neg hguard, Action.bind_apply]
    rcases Nat.lt_or_eq_of_le (Nat.not_lt.mp hgt) with hlt | h1
    · obtain ⟨⟨reason, hr⟩, hs⟩ := dropReference_none (by omega : e.references.count = 0) id c
      rw [hr]
      exact .inl ⟨reason, rfl, hs⟩
    · obtain ⟨hr, hs⟩ := dropReference_last h1 id c
      have hd : e.isAttached = false := by simpa [h1] using hguard
      rw [hr, hs]
      exact .inr (.inl ⟨e, rfl, h1, hd, by simp [hd, Action.pure_apply]⟩)

/-- An entry that the cache lets go of is freed if nobody else holds it. -/
theorem letGo_last {c : Cache β} {id : EntryId} {e : Entry} (he : c.get? id = some e)
    (h : e.references.count = 1) :
    (letGo id c).result = .ok .destroyed ∧ (letGo id c).state = c.free id := by
  have hd := get?_change_self he Entry.detached
  -- what is freed next need not be detached first
  have hfree : (c.change id Entry.detached).free id = c.free id := by
    unfold free change
    simp only [Arena.remove_update]
  rw [letGo]
  rw [Action.bind_apply, updateEntry_apply]
  simp only
  rw [live_bind_of_get? hd, ← hfree]
  exact dropReference_last h id _

/-- An entry that the cache lets go of stays without an owner if someone else holds it. -/
theorem letGo_held {c : Cache β} {id : EntryId} {e : Entry} (he : c.get? id = some e)
    (h : 1 < e.references.count) :
    ∃ left, left.count + 1 = e.references.count ∧
      (letGo id c).result = .ok (.alive left.count) ∧
      (letGo id c).state = c.change id (Entry.surrendered · left) := by
  have hd := get?_change_self he Entry.detached
  obtain ⟨left, hcount, hr, hs⟩ :=
    dropReference_held (e := e.detached) h id (c.change id Entry.detached)
  refine ⟨left, hcount, ?_⟩
  rw [letGo]
  rw [Action.bind_apply, updateEntry_apply]
  simp only
  rw [live_bind_of_get? hd]
  refine ⟨hr, hs.trans ?_⟩
  unfold change
  simp only [Arena.update_update]
  rfl

/-- To let go of an entry is seen in the arena alone. -/
theorem letGo_state {c : Cache β} {id : EntryId} {e : Entry} (he : c.get? id = some e)
    (h : 1 ≤ e.references.count) :
    (letGo id c).state = { c with arena := (letGo id c).state.arena } := by
  rcases Nat.eq_or_lt_of_le h with hlast | hheld
  · rw [(letGo_last he hlast.symm).2]
    rfl
  · obtain ⟨left, -, -, hs⟩ := letGo_held he hheld
    rw [hs]
    rfl

/-- Letting go of an entry that someone holds works. Neither the backend nor the list sees it. -/
theorem letGo_frame {c : Cache β} {id : EntryId} {e : Entry} (he : c.get? id = some e)
    (h : 1 ≤ e.references.count) :
    (∃ left, (letGo id c).result = .ok left) ∧ (letGo id c).state.backend = c.backend ∧
      (letGo id c).state.members = c.members := by
  have hresult : ∃ left, (letGo id c).result = .ok left := by
    rcases Nat.eq_or_lt_of_le h with hlast | hheld
    · exact ⟨_, (letGo_last he hlast.symm).1⟩
    · obtain ⟨left, -, hr, -⟩ := letGo_held he hheld
      exact ⟨_, hr⟩
  rw [letGo_state he h]
  exact ⟨hresult, rfl, rfl⟩

/-! ### Adding, and bodies -/

section Backend

variable [Backend β]

/-- The entry that the cache makes for an object that was just stored. -/
def stored (c : Cache β) (filename : String) (labels : Labels) : Entry :=
  { filename, labels, references := .two, owner := some c.id }

/-- `add` fails where the backend does, or lists a new entry. -/
theorem add_cases (labels : Labels) (data : Bytes) (c : Cache β) :
    (∃ error, (Backend.save labels data c.backend).result = .error error ∧
        (add labels data c).result = .error (storeError error) ∧
        (add labels data c).state =
          c.withBackend (Backend.save labels data c.backend).state) ∨
      ∃ filename, (Backend.save labels data c.backend).result = .ok filename ∧
        (add labels data c).result = .ok (c.arena.insert (c.stored filename labels)).1 ∧
        (add labels data c).state =
          (c.withBackend (Backend.save labels data c.backend).state).enlisted
            (c.stored filename labels) := by
  rw [add]
  rw [Action.bind_apply, Action.mapError_apply, onBackend_apply]
  cases h : (Backend.save labels data c.backend).result with
  | error error => exact .inl ⟨error, rfl, rfl, rfl⟩
  | ok filename => exact .inr ⟨filename, rfl, rfl, rfl⟩

/-- `body` gives the body of an entry that is mapped; or fails, in which case only the backend may
have changed; or maps the body of a listed entry. -/
theorem body_of_get? {c : Cache β} {id : EntryId} {e : Entry} (he : c.get? id = some e) :
    (∃ data, e.mapping = some data ∧ (body id c).result = .ok data ∧ (body id c).state = c) ∨
      (e.mapping = none ∧ e.owner ≠ some c.id ∧
        (∃ reason, (body id c).result = .error (.notAvailable e.filename reason)) ∧
        (body id c).state = c) ∨
      (e.mapping = none ∧ e.owner = some c.id ∧
        ((∃ error, (Backend.loadBody e.filename c.backend).result = .error error ∧
            (body id c).result = .error (.notAvailable e.filename error.message) ∧
            (body id c).state =
              c.withBackend (Backend.loadBody e.filename c.backend).state) ∨
          ∃ data, (Backend.loadBody e.filename c.backend).result = .ok data ∧
            (body id c).result = .ok data ∧
            (body id c).state =
              (c.withBackend (Backend.loadBody e.filename c.backend).state).change id
                fun e => { e with mapping := some data, idleSince := none })) := by
  rw [body, live_bind_of_get? he]
  cases hm : e.mapping with
  | some data => exact .inl ⟨data, rfl, rfl, rfl⟩
  | none =>
    refine .inr ?_
    dsimp only
    rw [Action.bind_apply, Action.get_apply]
    dsimp only
    by_cases ho : e.owner = some c.id
    · refine .inr ⟨rfl, ho, ?_⟩
      rw [if_neg (not_not_intro ho), Action.bind_apply, Action.mapError_apply, onBackend_apply]
      cases hl : (Backend.loadBody e.filename c.backend).result with
      | error error => exact .inl ⟨error, rfl, rfl, rfl⟩
      | ok data => exact .inr ⟨data, rfl, rfl, rfl⟩
    · rw [if_pos ho]
      exact .inl ⟨rfl, ho, ⟨_, rfl⟩, rfl⟩

/-- A body that the backend has is mapped for a listed entry. -/
theorem body_of_loadBody {c : Cache β} {id : EntryId} {e : Entry} {data : Bytes}
    (he : c.get? id = some e) (hm : e.mapping = none) (ho : e.owner = some c.id)
    (hload : (Backend.loadBody e.filename c.backend).result = .ok data) :
    (body id c).result = .ok data ∧
      (body id c).state =
        (c.withBackend (Backend.loadBody e.filename c.backend).state).change id
          fun e => { e with mapping := some data, idleSince := none } := by
  obtain ⟨other, hother, -⟩ | ⟨-, hnot, -⟩ | ⟨-, -, ⟨error, herror, -⟩ | ⟨other, hother, hr, hs⟩⟩ :=
    body_of_get? he
  · exact absurd (hm.symm.trans hother) nofun
  · exact absurd ho hnot
  · exact absurd (herror.symm.trans hload) nofun
  · obtain rfl := Except.ok.inj (hother.symm.trans hload)
    exact ⟨hr, hs⟩

/-- `body` fails under an identifier that leads nowhere. -/
theorem body_of_get?_eq_none {c : Cache β} {id : EntryId} (h : c.get? id = none) :
    (∃ reason, (body id c).result = .error (.integrity reason)) ∧ (body id c).state = c := by
  obtain ⟨hr, hs⟩ := live_bind_of_get?_eq_none h "get_body" _
  exact ⟨⟨_, hr⟩, hs⟩

/-- `body` changes nothing; or only the backend, in a failure; or it maps the body of a listed
entry. -/
theorem body_cases (id : EntryId) (c : Cache β) :
    (body id c).state = c ∨ ∃ e, c.get? id = some e ∧
      ((body id c).state = c.withBackend (Backend.loadBody e.filename c.backend).state ∨
        e.owner = some c.id ∧ ∃ data,
          (Backend.loadBody e.filename c.backend).result = .ok data ∧
          (body id c).state =
            (c.withBackend (Backend.loadBody e.filename c.backend).state).change id
              fun e => { e with mapping := some data, idleSince := none }) := by
  cases he : c.get? id with
  | none => exact .inl (body_of_get?_eq_none he).2
  | some e =>
    obtain ⟨-, -, -, hs⟩ | ⟨-, -, -, hs⟩ | ⟨-, ho, ⟨-, -, -, hs⟩ | ⟨data, hload, -, hs⟩⟩ :=
      body_of_get? he
    · exact .inl hs
    · exact .inl hs
    · exact .inr ⟨e, rfl, .inl hs⟩
    · exact .inr ⟨e, rfl, .inr ⟨ho, data, hload, hs⟩⟩

end Backend

end Cache

end BlobCache
