/-!
# Slots

Objects lie in numbered slots. A slot's file name is its number in decimal digits, and
`Slot.ofName?` accepts only names of this form: no sign, no leading zero, no other digits than
the ASCII ones, and no number of more than 64 bits. A `SlotSet` is a set of slots in ascending
order, and `SlotSet.firstGap` is the least number that it lacks.
-/

namespace BlobCache

namespace Slot

/-- The file name of a slot. -/
def name (slot : Nat) : String :=
  slot.repr

/-- The file name under which an object of the slot is prepared. -/
def temporaryName (slot : Nat) : String :=
  name slot ++ ".tmp"

/-- Whether digits are written as a number is: not empty, and no zero before another digit. -/
def isCanonical : List Char → Bool
  | [] => false
  | c :: cs => (c :: cs).all Char.isDigit && (cs.isEmpty || c != '0')

/-- The least number that no slot has, 2 to the power of 64. -/
def bound : Nat := 18446744073709551616

/-- The slot with this file name. -/
def ofName? (name : String) : Option Nat :=
  let number := Nat.ofDigitChars 10 name.toList 0
  if isCanonical name.toList && number < bound then some number else none

end Slot

/-- A set of slots. -/
structure SlotSet where
  /-- The slots. -/
  toList : List Nat
  ascending : toList.Pairwise (· < ·)
  deriving DecidableEq, Repr

namespace SlotSet

/-- No slots. -/
def empty : SlotSet := ⟨[], .nil⟩

instance : Inhabited SlotSet := ⟨empty⟩

instance : Membership Nat SlotSet := ⟨fun s n => n ∈ s.toList⟩

instance (n : Nat) (s : SlotSet) : Decidable (n ∈ s) :=
  inferInstanceAs (Decidable (n ∈ s.toList))

theorem mem_def {n : Nat} {s : SlotSet} : n ∈ s ↔ n ∈ s.toList := Iff.rfl

/-- Number of slots. -/
def size (s : SlotSet) : Nat := s.toList.length

/-! ### Putting in and taking out -/

/-- Puts a number at its place in an ascending list. -/
def insertAscending (n : Nat) : List Nat → List Nat
  | [] => [n]
  | m :: ms =>
    if n < m then n :: m :: ms
    else if n = m then m :: ms
    else m :: insertAscending n ms

private theorem mem_insertAscending {n k : Nat} {l : List Nat} :
    k ∈ insertAscending n l ↔ k = n ∨ k ∈ l := by
  induction l with
  | nil => simp [insertAscending]
  | cons m ms ih =>
    unfold insertAscending
    split
    · simp
    · split
      · rename_i h; subst h; simp
      · simp only [List.mem_cons, ih]
        exact or_left_comm

private theorem pairwise_insertAscending {n : Nat} {l : List Nat} (h : l.Pairwise (· < ·)) :
    (insertAscending n l).Pairwise (· < ·) := by
  induction l with
  | nil => simp [insertAscending]
  | cons m ms ih =>
    obtain ⟨hm, hms⟩ := List.pairwise_cons.1 h
    unfold insertAscending
    split
    · rename_i hlt
      refine List.pairwise_cons.2 ⟨fun k hk => ?_, h⟩
      rcases List.mem_cons.1 hk with rfl | hk
      · exact hlt
      · exact Nat.lt_trans hlt (hm k hk)
    · split
      · exact h
      · refine List.pairwise_cons.2 ⟨fun k hk => ?_, ih hms⟩
        rcases mem_insertAscending.1 hk with rfl | hk
        · omega
        · exact hm k hk

/-- The set with one more slot. -/
def insert (s : SlotSet) (n : Nat) : SlotSet :=
  ⟨insertAscending n s.toList, pairwise_insertAscending s.ascending⟩

/-- The set without a slot. -/
def erase (s : SlotSet) (n : Nat) : SlotSet :=
  ⟨s.toList.filter (· != n), s.ascending.filter _⟩

/-- The set of the slots in a list. -/
def ofList (l : List Nat) : SlotSet :=
  l.foldl insert empty

@[simp]
theorem not_mem_empty (n : Nat) : n ∉ empty := by
  simp [mem_def, empty]

@[simp]
theorem mem_insert {s : SlotSet} {n k : Nat} : k ∈ s.insert n ↔ k = n ∨ k ∈ s :=
  mem_insertAscending

@[simp]
theorem mem_erase {s : SlotSet} {n k : Nat} : k ∈ s.erase n ↔ k ∈ s ∧ k ≠ n := by
  simp [mem_def, erase]

/-- Members put in one after the other are members, whatever their order. -/
private theorem mem_foldl_insert {l : List Nat} {s : SlotSet} {n : Nat} :
    n ∈ l.foldl insert s ↔ n ∈ l ∨ n ∈ s := by
  induction l generalizing s with
  | nil => simp
  | cons m ms ih =>
    rw [List.foldl_cons, ih, mem_insert, List.mem_cons, ← or_assoc, or_comm (a := n ∈ ms)]

@[simp]
theorem mem_ofList {l : List Nat} {n : Nat} : n ∈ ofList l ↔ n ∈ l := by
  simp [ofList, mem_foldl_insert]

/-! ### The first gap -/

/-- The least number from `n` on that an ascending list of such numbers lacks. -/
def gapFrom (n : Nat) : List Nat → Nat
  | [] => n
  | m :: ms => if m = n then gapFrom (n + 1) ms else n

/-- The least number that is not in the set. -/
def firstGap (s : SlotSet) : Nat :=
  gapFrom 0 s.toList

theorem gapFrom_spec {n : Nat} {l : List Nat} (h : l.Pairwise (· < ·)) (hn : ∀ m ∈ l, n ≤ m) :
    n ≤ gapFrom n l ∧ gapFrom n l ∉ l ∧ ∀ k, n ≤ k → k < gapFrom n l → k ∈ l := by
  induction l generalizing n with
  | nil => exact ⟨Nat.le_refl _, by simp, fun k h1 h2 => absurd h2 (Nat.not_lt.2 h1)⟩
  | cons m ms ih =>
    obtain ⟨hm, hms⟩ := List.pairwise_cons.1 h
    unfold gapFrom
    split
    · rename_i heq
      subst heq
      obtain ⟨h1, h2, h3⟩ := ih (n := m + 1) hms fun k hk => hm k hk
      refine ⟨by omega, ?_, fun k hk hlt => ?_⟩
      · simp only [List.mem_cons, not_or]
        exact ⟨by omega, h2⟩
      · rcases Nat.eq_or_lt_of_le hk with rfl | hk
        · exact List.mem_cons_self
        · exact List.mem_cons_of_mem _ (h3 k hk hlt)
    · rename_i hne
      refine ⟨Nat.le_refl _, ?_, fun k h1 h2 => absurd h2 (Nat.not_lt.2 h1)⟩
      have hle := hn m List.mem_cons_self
      simp only [List.mem_cons, not_or]
      exact ⟨fun h => hne h.symm, fun h => by have := hm n h; omega⟩

/-- The first gap is not in the set. -/
theorem firstGap_not_mem (s : SlotSet) : s.firstGap ∉ s :=
  (gapFrom_spec s.ascending fun _ _ => Nat.zero_le _).2.1

/-- Every number below the first gap is in the set. -/
theorem mem_of_lt_firstGap {s : SlotSet} {n : Nat} (h : n < s.firstGap) : n ∈ s :=
  (gapFrom_spec s.ascending fun _ _ => Nat.zero_le _).2.2 n (Nat.zero_le _) h

end SlotSet

end BlobCache
