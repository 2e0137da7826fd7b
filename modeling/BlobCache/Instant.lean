/-!
# Points in time

A point in time is a number of nanoseconds since the start of 1970, between the start of the year
-262143 and the end of the year 262142. Moving a point by a duration may leave this range;
`Instant.add?` says when (`add?_eq_none_iff`). Clocks are set and read in whole milliseconds
(`Instant.ofMs?`, `Instant.ms`), and a number that is given as a duration counts milliseconds too.

A duration may be of any length. Leap seconds are left out: a point in time is on the proleptic
calendar, of which every day has the same length.
-/

namespace BlobCache

/-- A length of time, which may be negative. -/
structure Duration where
  /-- Its number of nanoseconds. -/
  ns : Int
  deriving DecidableEq, Repr

namespace Duration

/-- The duration of a number of milliseconds. -/
def ofMs (ms : Int) : Duration := ⟨ms * 1000000⟩

instance : Coe Int Duration := ⟨ofMs⟩

instance : Neg Duration := ⟨fun d => ⟨-d.ns⟩⟩

end Duration

/-- A point in time within the representable years. -/
structure Instant where
  /-- Nanoseconds since the start of 1970. -/
  ns : Int
  earliest_le : -8334601228800000000000 ≤ ns
  le_latest : ns ≤ 8210266876799999999999
  deriving DecidableEq, Repr

namespace Instant

/-- The start of the range. -/
def earliest : Instant := ⟨-8334601228800000000000, by decide, by decide⟩

/-- The end of the range. -/
def latest : Instant := ⟨8210266876799999999999, by decide, by decide⟩

/-- The start of 1970. -/
def epoch : Instant := ⟨0, by decide, by decide⟩

instance : Inhabited Instant := ⟨epoch⟩

/-- The point in time with this number of nanoseconds, if the range holds it. -/
def ofNs? (ns : Int) : Option Instant :=
  if h : -8334601228800000000000 ≤ ns ∧ ns ≤ 8210266876799999999999 then some ⟨ns, h.1, h.2⟩
  else none

/-- The point in time with this number of milliseconds, if the range holds it. -/
def ofMs? (ms : Int) : Option Instant :=
  ofNs? (ms * 1000000)

/-- The last whole millisecond, counted from the start of 1970. -/
def ms (t : Instant) : Int :=
  t.ns / 1000000

/-- The point in time that is `duration` later, if the range holds it. -/
def add? (t : Instant) (duration : Duration) : Option Instant :=
  ofNs? (t.ns + duration.ns)

theorem add?_eq_none_iff {t : Instant} {duration : Duration} :
    t.add? duration = none ↔
      t.ns + duration.ns < earliest.ns ∨ latest.ns < t.ns + duration.ns := by
  unfold add? ofNs? earliest latest
  split
  · simp; omega
  · simp; omega

instance : LE Instant := ⟨fun a b => a.ns ≤ b.ns⟩

instance (a b : Instant) : Decidable (a ≤ b) :=
  inferInstanceAs (Decidable (a.ns ≤ b.ns))

theorem le_def {a b : Instant} : a ≤ b ↔ a.ns ≤ b.ns := Iff.rfl

end Instant

end BlobCache
