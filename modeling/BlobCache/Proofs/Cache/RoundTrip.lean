import BlobCache.Proofs.Cache.Unmapping

/-!
# Taking a reference and giving it back

To take a reference and to give it back at once looks like doing nothing. For most entries it is
nothing; it is not for an entry that only its cache holds and whose body is mapped. Such an entry is
parked (`Entry.isParked`): the reference ends the idle time of its body, and giving it back starts a
new one, or has the body of an eager entry unmapped. `Cache.RoundTrips` says both, and that there is
no other exception.

Together the two calls are one change to one entry (`acquire_release`), which leaves the layout of
the arena alone, so whether the cache is the same afterwards is seen at that entry
(`change_eq_self_iff`). `roundTrips_after` has this for every cache that a run can reach.
-/

namespace BlobCache

namespace Entry

/-- Whether the body is mapped, and only the cache that lists the entry holds it. -/
def isParked (e : Entry) : Bool :=
  e.isAttached && e.references.count == 1 && e.isMapped

theorem isParked_iff {e : Entry} :
    e.isParked ↔ e.isAttached ∧ e.references.count = 1 ∧ e.isMapped := by
  simp [isParked, and_assoc]

/-- The entry after a reference was taken and given back. -/
def roundTripped (e : Entry) (now : Instant) : Entry :=
  if e.isParked then
    if e.eager then { e with mapping := none, idleSince := none }
    else { e with idleSince := some now }
  else { e with idleSince := none }

/-- Giving back the reference that was taken leaves the entry as after a round trip. -/
private theorem released_acquired (e : Entry) (references : RefCount) (now : Instant) :
    ({ e with references, idleSince := none } : Entry).released now e.references =
      e.roundTripped now := by
  by_cases hp : e.isParked
  · have hall := isParked_iff.mp hp
    simp only [isAttached, isMapped] at hall
    cases hg : e.eager <;>
      simp [released, roundTripped, unmapped, isAttached, isMapped, hp, hall, hg]
  · have hnot := mt isParked_iff.mpr hp
    simp only [isAttached, isMapped] at hnot
    rw [roundTripped, if_neg hp]
    exact if_neg fun hall => hnot ⟨hall.2.1, hall.1, hall.2.2⟩

/-- An idle time is seen in the entry. -/
private theorem withIdleSince_eq_self_iff {e : Entry} {since : Option Instant} :
    ({ e with idleSince := since } : Entry) = e ↔ e.idleSince = since := by
  constructor
  · intro heq
    exact (congrArg idleSince heq).symm
  · rintro rfl
    rfl

/-- A round trip changes an entry if it unmaps the body or starts its idle time anew. -/
private theorem roundTripped_eq_self_iff {e : Entry} (h : ¬e.isParked → e.idleSince = none)
    (now : Instant) :
    e.roundTripped now = e ↔ (e.isParked → e.eager = false ∧ e.idleSince = some now) := by
  by_cases hp : e.isParked
  · cases hg : e.eager with
    | true =>
      -- the body that an eager entry loses was there
      have hm := (isParked_iff.mp hp).2.2
      rw [roundTripped, if_pos hp, if_pos hg]
      refine iff_of_false (fun heq => ?_) fun hidle => nomatch (hidle hp).1
      rw [isMapped, ← heq] at hm
      cases hm
    | false =>
      rw [roundTripped, if_pos hp, if_neg (Bool.eq_false_iff.mp hg), withIdleSince_eq_self_iff]
      exact ⟨fun hidle _ => ⟨rfl, hidle⟩, fun hidle => (hidle hp).2⟩
  · rw [roundTripped, if_neg hp, withIdleSince_eq_self_iff]
    exact iff_of_true (h hp) fun hparked => absurd hparked hp

end Entry

namespace Cache

variable {β : Type}

/-- What becomes of a cache when a reference to the entry `e` is taken and then given back. -/
structure RoundTrips (c : Cache β) (id : EntryId) (e : Entry) (now : Instant)
    (taken : Outcome (Cache β) Nat) (given : Outcome (Cache β) Liveness) : Prop where
  /-- Taking the reference counts it. -/
  taken_eq : taken.result = .ok (e.references.count + 1)
  /-- Giving it back leaves the others. -/
  given_eq : given.result = .ok (.alive e.references.count)
  /-- In between, the entry is there and not idle, with one reference more. -/
  between : ∃ references, references.count = e.references.count + 1 ∧
    taken.state.get? id = some { e with references, idleSince := none }
  /-- An eager entry that is parked loses its body. -/
  unmapped : e.isParked → e.eager = true →
    given.state.get? id = some { e with mapping := none, idleSince := none }
  /-- Any other entry that is parked keeps its body, which is idle from now on. -/
  idle : e.isParked → e.eager = false →
    given.state.get? id = some { e with idleSince := some now }
  /-- Entries that are not parked are not idle, and nothing becomes of them. -/
  otherwise : ¬e.isParked → e.idleSince = none ∧ given.state = c
  /-- Nothing becomes of other entries in any case. -/
  others : ∀ other, other ≠ id →
    taken.state.get? other = c.get? other ∧ given.state.get? other = c.get? other
  /-- No entry comes or goes. -/
  layout_eq : taken.state.arena.layout = c.arena.layout ∧
    given.state.arena.layout = c.arena.layout
  /-- Nothing but entries changes. -/
  state_eq : taken.state = { c with arena := taken.state.arena } ∧
    given.state = { c with arena := given.state.arena }
  /-- The cache is the same, unless a body is unmapped or its idle time starts anew. -/
  eq_iff : given.state = c ↔ (e.isParked → e.eager = false ∧ e.idleSince = some now)

/-- A change to an entry is seen at the entry, or not at all. -/
theorem change_eq_self_iff {c : Cache β} {id : EntryId} {e : Entry} (he : c.get? id = some e)
    (f : Entry → Entry) : c.change id f = c ↔ f e = e := by
  have hself := get?_change_self he f
  constructor
  · intro hsame
    rw [hsame, he] at hself
    exact (Option.some.inj hself).symm
  · intro hsame
    refine eq_of_layout_of_get? rfl (Arena.layout_update c.arena id f) fun other => ?_
    by_cases hn : other = id
    · rw [hn, hself, hsame, he]
    · rw [get?_change, if_neg hn]

/-- A reference that is taken and given back changes one entry. -/
theorem acquire_release {c : Cache β} {id : EntryId} {e : Entry} {references : RefCount}
    (he : c.get? id = some e) (hpos : 1 ≤ e.references.count)
    (hi : e.references.increment = .ok references) (now : Instant) :
    (release now id (acquire id c).state).result = .ok (.alive e.references.count) ∧
      (release now id (acquire id c).state).state = c.change id (Entry.roundTripped · now) := by
  have hcount := RefCount.increment_eq_ok hi
  rw [(acquire_of_increment he hi).2]
  have htaken := get?_change_self he fun e => { e with references, idleSince := none }
  have hheld : 1 < references.count := by omega
  obtain ⟨left, hleft, hr, hs⟩ := release_of_held now htaken hheld
  replace hleft : left.count + 1 = references.count := hleft
  obtain rfl : left = e.references := RefCount.eq_of_count_eq (by omega)
  refine ⟨hr, hs.trans ((change_change c id _ _).trans (change_congr he ?_))⟩
  exact e.released_acquired references now

namespace Sound

variable {ledger : Ledger} {c : Cache β} {id : EntryId} {e : Entry}

/-- In a sound cache, an entry that is not parked is not idle. -/
private theorem idleSince_of_not_isParked (h : c.Sound ledger []) (he : c.get? id = some e)
    (hp : ¬e.isParked) : e.idleSince = none := by
  refine Option.not_isSome_iff_eq_none.mp fun hidle => ?_
  exact hp (Entry.isParked_iff.mpr (h.idle he hidle))

/-- What a round trip of a reference does to a sound cache. The two calls are one change to one
entry (`acquire_release`), so nothing has changed exactly if this entry has not
(`change_eq_self_iff`). -/
theorem roundTrips (h : c.Sound ledger []) (he : c.get? id = some e)
    (hlt : e.references.count < 4294967295) (now : Instant) :
    c.RoundTrips id e now (Cache.acquire id c)
      (Cache.release now id (Cache.acquire id c).state) := by
  obtain ⟨references, hi⟩ : ∃ references, e.references.increment = .ok references :=
    ⟨_, dif_pos hlt⟩
  have hcount := RefCount.increment_eq_ok hi
  obtain ⟨htr, hts⟩ := acquire_of_increment he hi
  obtain ⟨hgr, hgs⟩ := acquire_release he (h.references_pos he) hi now
  have hself := get?_change_self he (Entry.roundTripped · now)
  have hsame : (c.change id (Entry.roundTripped · now) = c) ↔
      (e.isParked → e.eager = false ∧ e.idleSince = some now) :=
    (change_eq_self_iff he _).trans
      (Entry.roundTripped_eq_self_iff (h.idleSince_of_not_isParked he) now)
  constructor
  case taken_eq => rw [htr, hcount]
  case given_eq => exact hgr
  case between =>
    refine ⟨references, hcount, ?_⟩
    rw [hts, get?_change_self he]
  case unmapped =>
    intro hp hg
    rw [hgs, hself, Entry.roundTripped, if_pos hp, if_pos hg]
  case idle =>
    intro hp hg
    rw [hgs, hself, Entry.roundTripped, if_pos hp, if_neg (Bool.eq_false_iff.mp hg)]
  case otherwise =>
    intro hp
    refine ⟨h.idleSince_of_not_isParked he hp, ?_⟩
    rw [hgs, hsame]
    exact fun hparked => absurd hparked hp
  case others =>
    intro other hn
    rw [hgs, hts, get?_change, get?_change, if_neg hn, if_neg hn]
    exact ⟨rfl, rfl⟩
  case layout_eq =>
    rw [hgs, hts]
    exact ⟨Arena.layout_update c.arena id _, Arena.layout_update c.arena id _⟩
  case state_eq =>
    rw [hgs, hts]
    exact ⟨rfl, rfl⟩
  case eq_iff => rw [hgs, hsame]

end Sound

/-- **Round trips.** In every run, taking a reference to an entry and giving it back at once leaves
everything as it was, except that a parked entry becomes idle at that moment or, if it is eager,
loses its body. An entry that has as many references as can be counted cannot be taken. The rest is
`Sound.roundTrips`, which holds of sound caches and so of all that a run can reach. -/
theorem roundTrips_after [Backend β] {id : CacheId} {backend : β} {hint : Nat}
    (hopen : (openOver id backend hint).result = .ok ()) (calls : List Call) {entry : EntryId}
    {e : Entry} (he : ((openOver id backend hint).state.after calls).get? entry = some e)
    (hlt : e.references.count < 4294967295) (now : Instant) :
    let c := (openOver id backend hint).state.after calls
    c.RoundTrips entry e now (acquire entry c) (release now entry (acquire entry c).state) :=
  (sound_after hopen calls).roundTrips he hlt now

/-- A body is mapped, and idle since the start of 1970. -/
def resting : List Call :=
  [.acquire ⟨0, 0⟩, .body ⟨0, 0⟩, .release .epoch ⟨0, 0⟩]

/-- The idle time of a parked entry starts anew. -/
theorem roundTrips_after_resting :
    (openOver ⟨1⟩ smallStore 2).result = .ok () ∧
      let c := (openOver ⟨1⟩ smallStore 2).state.after resting
      ∃ e, c.get? ⟨0, 0⟩ = some e ∧ e.references.count < 4294967295 ∧ e.isParked ∧
        e.idleSince = some .epoch ∧
        c.RoundTrips ⟨0, 0⟩ e .latest (acquire ⟨0, 0⟩ c)
          (release .latest ⟨0, 0⟩ (acquire ⟨0, 0⟩ c).state) := by
  have hopen : (openOver ⟨1⟩ smallStore 2).result = .ok () := by rfl
  obtain ⟨e, he, hlt, hparked, hidle⟩ :
      ∃ e, ((openOver ⟨1⟩ smallStore 2).state.after resting).get? ⟨0, 0⟩ = some e ∧
        e.references.count < 4294967295 ∧ e.isParked ∧ e.idleSince = some .epoch :=
    ⟨_, rfl, by decide, rfl, rfl⟩
  exact ⟨hopen, e, he, hlt, hparked, hidle, roundTrips_after hopen resting he hlt .latest⟩

end Cache

end BlobCache
