import BlobCache.ObjectDir.Slot
import Mathlib.Data.List.Sort

/-!
# The names of slots

A name belongs to at most one slot, and the names that belong to slots are exactly those that slots
are given (`ofName?_eq_some_iff`): reading a name is the inverse of writing a number. The core of
this is `toDigits_ofDigitChars`, by which digits that do not start with a zero are what is written
for the number that they spell.

Names of slots consist of digits. For this reason they are plain names in a folder, and none of them
is the name of a temporary file.
-/

namespace BlobCache

/-- Sets with the same slots are equal. -/
theorem SlotSet.ext_of_mem {s t : SlotSet} (h : ∀ n, n ∈ s ↔ n ∈ t) : s = t := by
  obtain ⟨slots, hs⟩ := s
  obtain ⟨slots', ht⟩ := t
  obtain rfl : slots = slots' := hs.eq_of_mem_iff ht h
  rfl

/-- The first gap is the number that is missing while all smaller ones are there. -/
theorem SlotSet.firstGap_eq_iff {s : SlotSet} {n : Nat} :
    s.firstGap = n ↔ n ∉ s ∧ ∀ k < n, k ∈ s := by
  constructor
  · rintro rfl
    exact ⟨s.firstGap_not_mem, fun k hk => SlotSet.mem_of_lt_firstGap hk⟩
  · rintro ⟨hnot, hbelow⟩
    rcases Nat.lt_trichotomy s.firstGap n with hlt | heq | hgt
    · exact absurd (hbelow _ hlt) s.firstGap_not_mem
    · exact heq
    · exact absurd (SlotSet.mem_of_lt_firstGap hgt) hnot

namespace Slot

/-! ### Digits -/

/-- A digit is what is written for its value. -/
private theorem digitChar_of_isDigit {c : Char} (h : c.isDigit) : (c.toNat - 48).digitChar = c := by
  obtain ⟨hlow, hhigh⟩ := Char.isDigit_iff_toNat.mp h
  change 48 ≤ c.toNat at hlow
  change c.toNat ≤ 57 at hhigh
  have hnat : (c.toNat - 48).digitChar.toNat = c.toNat := by
    rw [Nat.toNat_digitChar_of_lt_ten (by omega)]
    omega
  exact Char.toNat_inj.mp hnat

/-- A digit other than zero has a positive value. -/
private theorem pos_of_isDigit {c : Char} (h : c.isDigit) (hz : c ≠ '0') : 0 < c.toNat - 48 := by
  have hne : c.toNat - 48 ≠ 0 := by
    intro heq
    have hc := digitChar_of_isDigit h
    rw [heq] at hc
    exact hz hc.symm
  omega

/-- A digit has a value below ten. -/
private theorem lt_ten_of_isDigit {c : Char} (h : c.isDigit) : c.toNat - 48 < 10 := by
  have hhigh : c.toNat ≤ 57 := (Char.isDigit_iff_toNat.mp h).2
  omega

/-- Digits behind a positive number are written behind it. -/
private theorem toDigits_ofDigitChars_of_pos {cs : List Char} (hcs : ∀ c ∈ cs, c.isDigit) {n : Nat}
    (hn : 0 < n) : Nat.toDigits 10 (Nat.ofDigitChars 10 cs n) = Nat.toDigits 10 n ++ cs := by
  induction cs generalizing n with
  | nil => rw [Nat.ofDigitChars_nil, List.append_nil]
  | cons c cs ih =>
    have hc := hcs c List.mem_cons_self
    have hlt := lt_ten_of_isDigit hc
    have hdigit : Nat.toDigits 10 (c.toNat - 48) = [c] := by
      rw [Nat.toDigits_of_lt_base hlt, digitChar_of_isDigit hc]
    have hstep : Nat.toDigits 10 (10 * n + (c.toNat - 48)) = Nat.toDigits 10 n ++ [c] := by
      rw [← Nat.toDigits_append_toDigits (by omega) hn hlt, hdigit]
    rw [Nat.ofDigitChars_cons]
    change Nat.toDigits 10 (Nat.ofDigitChars 10 cs (10 * n + (c.toNat - 48))) = _
    rw [ih (fun d hd => hcs d (List.mem_cons_of_mem c hd)) (by omega), hstep, List.append_assoc]
    rfl

/-- Digits that are written as a number is are what is written for the number that they spell. -/
theorem toDigits_ofDigitChars {cs : List Char} (h : isCanonical cs) :
    Nat.toDigits 10 (Nat.ofDigitChars 10 cs 0) = cs := by
  cases cs with
  | nil => simp [isCanonical] at h
  | cons c cs =>
    simp only [isCanonical, List.all_eq_true, Bool.and_eq_true, Bool.or_eq_true,
      List.isEmpty_iff, bne_iff_ne] at h
    obtain ⟨hdigits, hlead⟩ := h
    have hc := hdigits c List.mem_cons_self
    have hdigit : Nat.toDigits 10 (c.toNat - 48) = [c] := by
      rw [Nat.toDigits_of_lt_base (lt_ten_of_isDigit hc), digitChar_of_isDigit hc]
    rw [Nat.ofDigitChars_cons]
    change Nat.toDigits 10 (Nat.ofDigitChars 10 cs (10 * 0 + (c.toNat - 48))) = _
    rw [Nat.mul_zero, Nat.zero_add]
    -- a zero leads only if it stands alone
    rcases hlead with rfl | hz
    · rw [Nat.ofDigitChars_nil, hdigit]
    · have hrest : ∀ d ∈ cs, d.isDigit := fun d hd => hdigits d (List.mem_cons_of_mem c hd)
      rw [toDigits_ofDigitChars_of_pos hrest (pos_of_isDigit hc hz), hdigit]
      rfl

/-- The digits of a positive number do not start with a zero. -/
theorem head?_toDigits {n : Nat} (h : 0 < n) : (Nat.toDigits 10 n).head? ≠ some '0' := by
  induction n using Nat.strongRecOn with
  | ind n ih =>
    rw [Nat.toDigits_eq_if (by omega)]
    by_cases hlt : n < 10
    · rw [if_pos hlt, List.head?_cons]
      intro heq
      have hz := Nat.digitChar_eq_zero.mp (Option.some.inj heq)
      omega
    · -- the first digit of a longer number is that of a tenth of it
      have hfirst := ih (n / 10) (by omega) (by omega)
      obtain ⟨c, cs, heq⟩ :=
        List.exists_cons_of_ne_nil (Nat.toDigits_ne_nil (n := n / 10) (b := 10))
      rw [heq] at hfirst
      rw [if_neg hlt, heq]
      exact hfirst

/-- Numbers are written as numbers are. -/
theorem isCanonical_toDigits (n : Nat) : isCanonical (Nat.toDigits 10 n) := by
  have hdigits : ∀ c ∈ Nat.toDigits 10 n, c.isDigit := fun c hc =>
    Nat.isDigit_of_mem_toDigits (by omega) (by omega) hc
  rcases Nat.eq_zero_or_pos n with rfl | hpos
  · rfl
  · have hlead := head?_toDigits hpos
    obtain ⟨c, cs, heq⟩ := List.exists_cons_of_ne_nil (Nat.toDigits_ne_nil (n := n) (b := 10))
    rw [heq] at hdigits hlead ⊢
    have hc : c ≠ '0' := fun hc => hlead (by rw [hc]; rfl)
    simp only [isCanonical, List.all_eq_true, Bool.and_eq_true, Bool.or_eq_true, bne_iff_ne]
    exact ⟨hdigits, .inr hc⟩

/-! ### Names -/

/-- A capacity that a machine word holds leaves every slot below the bound. -/
theorem toNat_le_bound (hint : UInt64) : hint.toNat ≤ bound :=
  Nat.le_of_lt hint.toNat_lt

theorem toList_name (n : Nat) : (name n).toList = Nat.toDigits 10 n :=
  Nat.toList_repr

/-- A name belongs to a slot exactly if it is the slot's name. -/
theorem ofName?_eq_some_iff {s : String} {n : Nat} :
    ofName? s = some n ↔ s = name n ∧ n < bound := by
  rw [ofName?]
  constructor
  · intro h
    by_cases hok : isCanonical s.toList && decide (Nat.ofDigitChars 10 s.toList 0 < bound)
    · rw [if_pos hok] at h
      obtain ⟨hcanon, hlt⟩ := Bool.and_eq_true_iff.mp hok
      have hn := Option.some.inj h
      refine ⟨String.toList_inj.mp ?_, hn ▸ of_decide_eq_true hlt⟩
      rw [toList_name, ← hn, toDigits_ofDigitChars hcanon]
    · rw [if_neg hok] at h
      cases h
  · rintro ⟨rfl, hlt⟩
    have hnumber : Nat.ofDigitChars 10 (name n).toList 0 = n := by
      rw [toList_name, Nat.ofDigitChars_ten_toDigits]
    have hcanon : isCanonical (name n).toList := by
      rw [toList_name]
      exact isCanonical_toDigits n
    rw [hnumber, hcanon]
    simp [hlt]

/-- Different slots have different names. -/
theorem name_injective {m n : Nat} (h : name m = name n) : m = n := by
  have hdigits : Nat.toDigits 10 m = Nat.toDigits 10 n := by
    rw [← toList_name, ← toList_name, h]
  rw [← Nat.ofDigitChars_ten_toDigits (n := m), hdigits, Nat.ofDigitChars_ten_toDigits]

/-- Names consist of digits. -/
theorem isDigit_of_mem_name {n : Nat} {c : Char} (h : c ∈ (name n).toList) : c.isDigit := by
  rw [toList_name] at h
  exact Nat.isDigit_of_mem_toDigits (by omega) (by omega) h

/-- Different slots have different temporary files. -/
theorem temporaryName_injective {m n : Nat} (h : temporaryName m = temporaryName n) : m = n := by
  have hlist : (name m).toList ++ ".tmp".toList = (name n).toList ++ ".tmp".toList := by
    rw [← String.toList_append, ← String.toList_append]
    exact congrArg String.toList h
  exact name_injective (String.toList_inj.mp (List.append_cancel_right hlist))

/-- The name of a temporary file is no slot's. -/
theorem temporaryName_ne_name (m n : Nat) : temporaryName m ≠ name n := by
  intro h
  have hdot : '.' ∈ (name n).toList := by
    rw [← h, temporaryName, String.toList_append]
    exact List.mem_append_right _ (by decide)
  exact absurd (isDigit_of_mem_name hdot) (by decide)

end Slot

end BlobCache
