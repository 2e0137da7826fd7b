/-!
# Reference counts

A count of references that refuses to leave its range instead of wrapping around: at the maximum
it takes no further reference, and at zero it gives none back.
-/

namespace BlobCache

/-- A number of references, at most 4294967295. -/
structure RefCount where
  /-- The number. -/
  count : Nat
  le_max : count ≤ 4294967295 := by omega
  deriving DecidableEq, Repr

/-- What is left of an entry after one of its references is given back. -/
inductive Liveness
  /-- This many references remain. -/
  | alive (count : Nat)
  /-- The last reference is gone, and the entry with it. -/
  | destroyed
  deriving DecidableEq, Repr

namespace RefCount

/-- Why a count stays as it is. -/
inductive Refusal
  | overflow
  | underflow
  deriving DecidableEq, Repr

/-- The wording of a refusal. -/
def Refusal.message : Refusal → String
  | overflow => "reference count overflow"
  | underflow => "reference count underflow"

/-- The count with this number, if there is one. -/
def ofNat? (n : Nat) : Option RefCount :=
  if h : n ≤ 4294967295 then some ⟨n, h⟩ else none

/-- One reference. -/
def one : RefCount := ⟨1, by decide⟩

/-- Two references. -/
def two : RefCount := ⟨2, by decide⟩

/-- One reference more. -/
def increment (r : RefCount) : Except Refusal RefCount :=
  if h : r.count < 4294967295 then .ok ⟨r.count + 1, h⟩ else .error .overflow

/-- One reference less. -/
def decrement (r : RefCount) : Except Refusal RefCount :=
  match r with
  | ⟨0, _⟩ => .error .underflow
  | ⟨n + 1, h⟩ => .ok ⟨n, Nat.le_of_succ_le h⟩

/-- What a count says about its entry. -/
def liveness (r : RefCount) : Liveness :=
  if r.count = 0 then .destroyed else .alive r.count

end RefCount

end BlobCache
