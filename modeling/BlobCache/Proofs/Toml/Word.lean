import BlobCache.Proofs.ObjectDir.Slot
import BlobCache.Toml.Word

/-!
# Words read back

The digits of a number that 64 bits hold with a sign are read as an integer, namely as that number
(`wordValue?_toDigits`). Digits alone are neither a truth value nor a date or a time, since these
have a letter, a dash or a colon, nor a floating-point number, which has a point or an exponent.
-/

namespace BlobCache.Toml

variable {c : Char} {s : List Char}

/-! ### Characters of words -/

theorem isWordChar_of_isDigit (h : c.isDigit = true) : isWordChar c = true := by
  simp [isWordChar, Char.isAlphanum, h]

/-- The characters that tell other words from numbers are no digits. -/
private theorem not_mem_of_digits (hs : ∀ c ∈ s, c.isDigit = true) (hc : c.isDigit = false) :
    c ∉ s :=
  fun hmem => by
    rw [hs c hmem] at hc
    cases hc

/-! ### What digits are not -/

/-- A date has a dash behind its year. -/
theorem afterDate?_of_digits (hs : ∀ c ∈ s, c.isDigit = true) : afterDate? s = none := by
  have hdash : '-' ∉ s := not_mem_of_digits hs (by decide)
  rw [afterDate?.eq_def]
  split
  · simp at hdash
  · rfl

/-- A time has a colon behind its hour. -/
private theorem afterTime?_of_digits (hs : ∀ c ∈ s, c.isDigit = true) : afterTime? s = none := by
  have hcolon : ':' ∉ s := not_mem_of_digits hs (by decide)
  rw [afterTime?.eq_def]
  split
  · simp at hcolon
  · rfl

/-- A floating-point number has a point or an exponent, unless it is infinite or none at all. -/
private theorem isFloat_of_digits (hs : ∀ c ∈ s, c.isDigit = true) : isFloat s = false := by
  have hmarks : s.any (fun c => c == '.' || (c == 'e' || c == 'E')) = false := by
    refine List.any_eq_false.mpr fun c hc => ?_
    have hdigit := hs c hc
    have hpoint : c ≠ '.' := fun heq => by simp [heq] at hdigit
    have hlower : c ≠ 'e' := fun heq => by simp [heq] at hdigit
    have hupper : c ≠ 'E' := fun heq => by simp [heq] at hdigit
    simp [hpoint, hlower, hupper]
  have hunsigned (positive : Bool) : isUnsignedFloat positive s = false := by
    unfold isUnsignedFloat
    dsimp only
    split
    · rw [hmarks, Bool.false_and]
    · rfl
  have hletters : s ≠ ['i', 'n', 'f'] ∧ s ≠ ['n', 'a', 'n'] := by
    constructor
    · rintro rfl
      exact absurd (hs 'i' List.mem_cons_self) (by decide)
    · rintro rfl
      exact absurd (hs 'n' List.mem_cons_self) (by decide)
  have hplus : '+' ∉ s := not_mem_of_digits hs (by decide)
  have hminus : '-' ∉ s := not_mem_of_digits hs (by decide)
  unfold isFloat
  split
  rename_i heq
  split at heq
  · simp at hplus
  · simp at hminus
  · obtain ⟨-, rfl⟩ := Prod.mk.inj heq
    simp [hletters, hunsigned]

/-! ### Numbers -/

/-- Digits are worth in a word what they are worth in a name. -/
private theorem number_of_digits (hs : ∀ c ∈ s, c.isDigit = true) (n : Nat) :
    s.foldl (fun n c => 10 * n + digitValue c) n = Nat.ofDigitChars 10 s n := by
  induction s generalizing n with
  | nil => rfl
  | cons c s ih =>
    have hvalue : digitValue c = c.toNat - '0'.toNat := by
      rw [digitValue, if_pos (hs c List.mem_cons_self)]
      rfl
    rw [List.foldl_cons, hvalue, ih fun d hd => hs d (List.mem_cons_of_mem c hd)]
    rfl

/-- The digits of a number need no grouping, and no zero leads them. -/
theorem decimal?_toDigits (n : Nat) : decimal? (Nat.toDigits 10 n) = some (Nat.toDigits 10 n) := by
  have hdigits : ∀ c ∈ Nat.toDigits 10 n, c.isDigit = true := fun c hc =>
    Nat.isDigit_of_mem_toDigits (by omega) (by omega) hc
  have hungroup : ungroup? Char.isDigit (Nat.toDigits 10 n) = some (Nat.toDigits 10 n) := by
    have hsplit : (Nat.toDigits 10 n).splitOn '_' = [Nat.toDigits 10 n] :=
      List.splitOn_eq_singleton (not_mem_of_digits hdigits (by decide))
    have hall : (Nat.toDigits 10 n).all Char.isDigit = true := List.all_eq_true.mpr hdigits
    simp [ungroup?, hsplit, hall, Nat.toDigits_ne_nil]
  have hlead : ¬((Nat.toDigits 10 n).head? = some '0' ∧ Nat.toDigits 10 n ≠ ['0']) := by
    rintro ⟨hzero, hne⟩
    rcases Nat.eq_zero_or_pos n with rfl | hpos
    · exact hne rfl
    · exact Slot.head?_toDigits hpos hzero
  rw [decimal?, hungroup, Option.bind_some, if_neg hlead]

/-- Digits have no sign and no mark of another base. -/
theorem integer?_of_digits (hs : ∀ c ∈ s, c.isDigit = true) : integer? s = signed? false s := by
  rw [integer?.eq_def]
  split
  · exact absurd (hs 'x' (by simp)) (by decide)
  · exact absurd (hs 'o' (by simp)) (by decide)
  · exact absurd (hs 'b' (by simp)) (by decide)
  · exact absurd (hs '+' (by simp)) (by decide)
  · exact absurd (hs '-' (by simp)) (by decide)
  · rfl

/-- The digits of a number below the bound are read as the number. -/
theorem wordValue?_toDigits {n : Nat} (h : n < integerBound) :
    wordValue? (Nat.toDigits 10 n) = some (.integer n) := by
  have hdigits : ∀ c ∈ Nat.toDigits 10 n, c.isDigit = true := fun c hc =>
    Nat.isDigit_of_mem_toDigits (by omega) (by omega) hc
  have htrue : Nat.toDigits 10 n ≠ ['t', 'r', 'u', 'e'] := fun heq =>
    not_mem_of_digits hdigits (c := 't') (by decide) (by rw [heq]; exact List.mem_cons_self)
  have hfalse : Nat.toDigits 10 n ≠ ['f', 'a', 'l', 's', 'e'] := fun heq =>
    not_mem_of_digits hdigits (c := 'f') (by decide) (by rw [heq]; exact List.mem_cons_self)
  have hdate : isDateTime (Nat.toDigits 10 n) = false := by
    rw [isDateTime, afterDate?_of_digits hdigits]
    simp [afterTime?_of_digits hdigits]
  have hnumber : number 10 (Nat.toDigits 10 n) = n := by
    rw [number, number_of_digits hdigits, Nat.ofDigitChars_ten_toDigits]
  rw [wordValue?, if_neg htrue, if_neg hfalse, hdate, isFloat_of_digits hdigits,
    integer?_of_digits hdigits, signed?, decimal?_toDigits]
  simp [hnumber, h]

end BlobCache.Toml
