import BlobCache.Toml.Quotation
import BlobCache.Toml.Text

/-!
# Texts read back

Whatever notation is chosen for a text, the text is read back from it, and the reader halts behind
the closing quotes (`Quotation.textBehind_behindMark`). The one thing that may not follow is another
quote, which would be taken for a part of the text.

* **Escapes**: `escape_cases` says all that the writer can put for a character, and either reader
  undoes each of these (`basicText_escape`, `basicLines_escape`).
* **Quotes**: of the quotes in a text over several lines, the reader sees the first of three. Since
  the writer lets no three stand in a row, it is right about these, and up to two quotes next to
  the closing ones are given back to the text (`afterTwo?_closing`).
* **The choice**: `Quotation.Holds` says which texts a notation can hold, and the writer chooses
  accordingly (`Quotation.holds_choose`).
-/

namespace BlobCache.Toml

variable {c quote : Char} {s t rest : List Char}

/-! ### Escapes -/

/-- What needs no escape and is no line break may stand in a text. -/
private theorem isPlain_of_needsEscape_eq_false (h : needsEscape c = false) (hc : c ≠ '\n') :
    isPlain c = true := by
  have hcode : c.toNat ≠ 0x7F := by
    intro heq
    simp [needsEscape, heq] at h
  have hlow : 0x20 ≤ c.toNat := by
    refine Nat.le_of_not_lt fun hlt => ?_
    simp [needsEscape, hlt, hc] at h
  simp [isPlain, hlow, hcode]

/-- The characters that need an escape are found among the first 128. -/
private theorem toNat_lt_of_needsEscape (h : needsEscape c = true) : c.toNat < 128 := by
  simp only [needsEscape, Bool.or_eq_true, Bool.and_eq_true, decide_eq_true_eq, beq_iff_eq] at h
  omega

/-- The digits of a small code point spell its character. -/
private theorem charOfHex?_of_lt : ∀ n < 128,
    charOfHex? [Quotation.hexDigit (n / 4096 % 16), Quotation.hexDigit (n / 256 % 16),
      Quotation.hexDigit (n / 16 % 16), Quotation.hexDigit (n % 16)] = some (Char.ofNat n) := by
  decide

/-- A character other than a quote is written by a letter behind a backslash, by its code point, or
as it is, which for a line break is possible only in a text over several lines. -/
theorem escape_cases (lines : Bool) (c : Char) :
    (∃ e, Quotation.escape lines c = ['\\', e] ∧ e ∈ ['b', 't', 'n', 'f', 'r', '\\'] ∧
      shortEscape? e = some c) ∨
    (∃ h₁ h₂ h₃ h₄, Quotation.escape lines c = ['\\', 'u', h₁, h₂, h₃, h₄] ∧
      charOfHex? [h₁, h₂, h₃, h₄] = some c) ∨
    (Quotation.escape lines c = ['\n'] ∧ lines = true ∧ c = '\n') ∨
    (Quotation.escape lines c = [c] ∧ c ≠ '\\' ∧ c ≠ '\n' ∧ c ≠ '\r' ∧ isPlain c = true) := by
  unfold Quotation.escape
  by_cases hb : c = '\x08'
  · exact .inl ⟨'b', by simp [hb], by decide, by rw [hb]; decide⟩
  rw [if_neg hb]
  by_cases ht : c = '\t'
  · exact .inl ⟨'t', by simp [ht], by decide, by rw [ht]; decide⟩
  rw [if_neg ht]
  by_cases hn : c = '\n'
  · cases lines with
    | true => exact .inr (.inr (.inl ⟨by simp [hn], rfl, hn⟩))
    | false => exact .inl ⟨'n', by simp [hn], by decide, by rw [hn]; decide⟩
  rw [if_neg hn]
  by_cases hf : c = '\x0c'
  · exact .inl ⟨'f', by simp [hf], by decide, by rw [hf]; decide⟩
  rw [if_neg hf]
  by_cases hr : c = '\r'
  · exact .inl ⟨'r', by simp [hr], by decide, by rw [hr]; decide⟩
  rw [if_neg hr]
  by_cases hs : c = '\\'
  · exact .inl ⟨'\\', by simp [hs], by decide, by rw [hs]; decide⟩
  rw [if_neg hs]
  cases he : needsEscape c with
  | true =>
    refine .inr (.inl ⟨_, _, _, _, if_pos rfl, ?_⟩)
    rw [charOfHex?_of_lt c.toNat (toNat_lt_of_needsEscape he), Char.ofNat_toNat]
  | false => exact .inr (.inr (.inr ⟨by simp, hs, hn, hr, isPlain_of_needsEscape_eq_false he hn⟩))

/-- No escape starts with a quote. -/
private theorem head?_escape (hc : c ≠ '"') (lines : Bool) (t : List Char) :
    (Quotation.escape lines c ++ t).head? ≠ some '"' := by
  obtain ⟨e, he, -⟩ | ⟨h₁, h₂, h₃, h₄, he, -⟩ | ⟨he, -⟩ | ⟨he, -⟩ := escape_cases lines c
  · rw [he]
    simp
  · rw [he]
    simp
  · rw [he]
    simp
  · rw [he]
    simpa using hc

/-- The letters that stand for a character are not those that announce a code point. -/
private theorem ne_of_mem_letters {e : Char} (h : e ∈ ['b', 't', 'n', 'f', 'r', '\\']) :
    e ≠ 'u' ∧ e ≠ 'U' := by
  constructor
  · rintro rfl
    simp at h
  · rintro rfl
    simp at h

/-- On one line, an escape is read as its character. -/
theorem basicText_escape (hc : c ≠ '"') (t : List Char) :
    basicText (Quotation.escape false c ++ t) = consTo c (basicText t) := by
  obtain ⟨e, he, hmem, hshort⟩ | ⟨h₁, h₂, h₃, h₄, he, hhex⟩ | ⟨-, hlines, -⟩ | ⟨he, hs, -, -, hp⟩ :=
    escape_cases false c
  · obtain ⟨hu, hU⟩ := ne_of_mem_letters hmem
    rw [he, List.cons_append, basicText.eq_def]
    simp [hu, hU, hshort]
  · rw [he, List.cons_append, basicText.eq_def]
    simp [hhex]
  · cases hlines
  · rw [he, List.singleton_append, basicText.eq_def]
    simp [hc, hs, hp]

/-- A backslash that starts an escape does not join lines. -/
private theorem endsLine_cons {e : Char} (h : e ∈ ['b', 't', 'n', 'f', 'r', '\\', 'u'])
    (t : List Char) :
    endsLine (e :: t) = false := by
  simp only [List.mem_cons, List.not_mem_nil, or_false] at h
  rcases h with rfl | rfl | rfl | rfl | rfl | rfl | rfl <;> simp [endsLine, isBlank]

/-- In a text over several lines, an escape is read as its character. -/
theorem basicLines_escape (hc : c ≠ '"') (t : List Char) :
    basicLines false (Quotation.escape true c ++ t) = consTo c (basicLines false t) := by
  obtain ⟨e, he, hmem, hshort⟩ | ⟨h₁, h₂, h₃, h₄, he, hhex⟩ | ⟨he, -, hn⟩ | ⟨he, hs, hn, hr, hp⟩ :=
    escape_cases true c
  · obtain ⟨hu, hU⟩ := ne_of_mem_letters hmem
    have hends : endsLine (e :: t) = false :=
      endsLine_cons (List.mem_append_left ['u'] hmem) t
    rw [he, List.cons_append, basicLines.eq_def]
    simp [hu, hU, hshort, hends]
  · have hends : endsLine ('u' :: h₁ :: h₂ :: h₃ :: h₄ :: t) = false := endsLine_cons (by simp) _
    rw [he, List.cons_append, basicLines.eq_def]
    simp [hhex, hends]
  · rw [he, List.singleton_append, basicLines.eq_def]
    simp [hn]
  · rw [he, List.singleton_append, basicLines.eq_def]
    simp [hc, hs, hn, hr, hp]

/-! ### Quotes -/

/-- Two quotes are not seen where there is at most one. -/
private theorem afterTwo?_cons {c : Char} (h : c ≠ quote ∨ rest.head? ≠ some quote) :
    afterTwo? quote (c :: rest) = none := by
  cases rest with
  | nil => rfl
  | cons d rest =>
    rw [afterTwo?, if_neg]
    rintro ⟨hc, hd⟩
    obtain hne | hne := h
    · exact hne hc
    · exact hne (congrArg some hd)

/-- A text with a quote in it that is not followed by two more goes on. Only next to the closing
quotes may a quote be followed by more than one other; it and the one that may follow it are then
given back to the text. -/
theorem afterTwo?_closing (hs : ∀ t, s ≠ quote :: quote :: t) (hrest : rest.head? ≠ some quote) :
    afterTwo? quote (s ++ quote :: quote :: quote :: rest) = none ∨
      (s = [] ∨ s = [quote]) ∧
        (afterTwo? quote (s ++ quote :: quote :: quote :: rest)).map (surplusQuotes quote) =
          some (quote :: s, rest) := by
  -- behind surplus quotes comes no other one
  have hone : surplusQuotes quote (quote :: rest) = ([quote], rest) := by
    cases rest with
    | nil => simp [surplusQuotes]
    | cons c rest =>
      have hc : c ≠ quote := fun heq => hrest (by rw [heq, List.head?_cons])
      simp [surplusQuotes, hc]
  cases s with
  | nil => exact .inr ⟨.inl rfl, by simp [afterTwo?, hone]⟩
  | cons c s =>
    by_cases hc : c = quote
    · subst hc
      cases s with
      | nil => exact .inr ⟨.inr rfl, by simp [afterTwo?, surplusQuotes]⟩
      | cons d s =>
        have hd : d ≠ c := fun heq => hs s (by rw [heq])
        exact .inl (afterTwo?_cons (.inr fun heq => hd (Option.some.inj heq)))
    · exact .inl (afterTwo?_cons (.inl hc))

/-- Three quotes halt the readers of texts over several lines. -/
private theorem surplusQuotes_nil (hrest : rest.head? ≠ some quote) :
    surplusQuotes quote rest = ([], rest) := by
  cases rest with
  | nil => rfl
  | cons c rest =>
    have hc : c ≠ quote := fun heq => hrest (by rw [heq, List.head?_cons])
    cases rest with
    | nil => simp [surplusQuotes, hc]
    | cons d rest => simp [surplusQuotes, hc]

/-! ### Basic texts -/

namespace Quotation

/-- A character other than a quote ends a run of quotes. -/
private theorem escapeFrom_cons (hc : c ≠ '"') (lines : Bool) (run : Nat) (s : List Char) :
    escapeFrom lines run (c :: s) = escape lines c ++ escapeFrom lines 0 s := by
  rw [escapeFrom, if_neg hc]

/-- The first two quotes of a run stand for themselves if the text spans lines. -/
private theorem escapeFrom_quote_of_lt {run : Nat} (hrun : run < 2) (s : List Char) :
    escapeFrom true run ('"' :: s) = '"' :: escapeFrom true (run + 1) s := by
  rw [escapeFrom, if_pos rfl, if_pos (by simpa using hrun)]

/-- All other quotes are escaped. -/
private theorem escapeFrom_quote_of_not_lt (lines : Bool) {run : Nat}
    (hrun : ¬run < (if lines then 2 else 0)) (s : List Char) :
    escapeFrom lines run ('"' :: s) = '\\' :: '"' :: escapeFrom lines 0 s := by
  rw [escapeFrom, if_pos rfl, if_neg hrun]

/-- Where no quote may stand for itself, none comes first. -/
private theorem head?_escapeFrom (lines : Bool) {run : Nat} (hrun : ¬run < (if lines then 2 else 0))
    (s : List Char) : (escapeFrom lines run s).head? ≠ some '"' := by
  cases s with
  | nil => simp [escapeFrom]
  | cons c s =>
    by_cases hc : c = '"'
    · rw [hc, escapeFrom_quote_of_not_lt lines hrun]
      simp
    · rw [escapeFrom_cons hc]
      exact head?_escape hc lines _

/-- Behind one quote, not two others follow. -/
private theorem escapeFrom_succ_ne (run : Nat) (s t : List Char) :
    escapeFrom true (run + 1) s ≠ '"' :: '"' :: t := by
  intro heq
  by_cases hrun : run + 1 < 2
  · cases s with
    | nil => simp [escapeFrom] at heq
    | cons c s =>
      by_cases hc : c = '"'
      · rw [hc, escapeFrom_quote_of_lt hrun] at heq
        have hnext : ¬run + 1 + 1 < 2 := by omega
        refine head?_escapeFrom true hnext s ?_
        rw [(List.cons.inj heq).2, List.head?_cons]
      · rw [escapeFrom_cons hc] at heq
        exact head?_escape hc true _ (by rw [heq, List.head?_cons])
  · exact head?_escapeFrom true hrun s (by rw [heq, List.head?_cons])

/-- Nothing is written for nothing alone. -/
private theorem escapeFrom_eq_nil_iff {lines : Bool} {run : Nat} :
    escapeFrom lines run s = [] ↔ s = [] := by
  cases s with
  | nil => simp [escapeFrom]
  | cons c s =>
    refine iff_of_false (fun heq => ?_) (List.cons_ne_nil c s)
    by_cases hc : c = '"'
    · by_cases hrun : run < (if lines then 2 else 0)
      · rw [escapeFrom, if_pos hc, if_pos hrun] at heq
        cases heq
      · rw [escapeFrom, if_pos hc, if_neg hrun] at heq
        cases heq
    · rw [escapeFrom_cons hc] at heq
      obtain ⟨e, he, -⟩ | ⟨h₁, h₂, h₃, h₄, he, -⟩ | ⟨he, -⟩ | ⟨he, -⟩ := escape_cases lines c
      all_goals
        rw [he] at heq
        cases heq

/-- Only a quote is written as a quote alone. -/
private theorem eq_of_escapeFrom_eq {run : Nat} (h : escapeFrom true run s = ['"']) :
    s = ['"'] := by
  cases s with
  | nil => simp [escapeFrom] at h
  | cons c s =>
    by_cases hc : c = '"'
    · subst hc
      by_cases hrun : run < 2
      · rw [escapeFrom_quote_of_lt hrun] at h
        rw [escapeFrom_eq_nil_iff.mp (List.cons.inj h).2]
      · rw [escapeFrom_quote_of_not_lt true hrun] at h
        cases h
    · rw [escapeFrom_cons hc] at h
      exact absurd (by rw [h, List.head?_cons]) (head?_escape hc true _)

end Quotation

open Quotation

/-- A basic text is read back. -/
theorem basicText_escapeFrom (s rest : List Char) :
    basicText (escapeFrom false 0 s ++ '"' :: rest) = some (s, rest) := by
  induction s with
  | nil =>
    rw [escapeFrom, List.nil_append, basicText.eq_def]
    simp
  | cons c s ih =>
    by_cases hc : c = '"'
    · rw [hc, escapeFrom_quote_of_not_lt false (Nat.not_lt_zero 0), basicText.eq_def]
      simp [shortEscape?, ih, consTo]
    · rw [escapeFrom_cons hc, List.append_assoc, basicText_escape hc, ih]
      rfl

/-- A quote in a text over several lines belongs to the text if not two others follow; and if two
others follow, they are closing ones, up to a surplus that is given back. -/
private theorem basicLines_quote (t : List Char) :
    basicLines false ('"' :: t) =
      match afterTwo? '"' t with
      | some behind => some (surplusQuotes '"' behind)
      | none => consTo '"' (basicLines false t) := by
  rw [basicLines.eq_def]
  cases hafter : afterTwo? '"' t <;> simp [hafter]

/-- A basic text over several lines is read back, from whatever run of quotes on. -/
theorem basicLines_escapeFrom (hrest : rest.head? ≠ some '"') (run : Nat) (s : List Char) :
    basicLines false (escapeFrom true run s ++ '"' :: '"' :: '"' :: rest) = some (s, rest) := by
  induction s generalizing run with
  | nil =>
    rw [escapeFrom, List.nil_append, basicLines_quote]
    simp [afterTwo?, surplusQuotes_nil hrest]
  | cons c s ih =>
    by_cases hc : c = '"'
    · subst hc
      by_cases hrun : run < 2
      · -- a quote that stands for itself
        rw [escapeFrom_quote_of_lt hrun, List.cons_append, basicLines_quote]
        obtain hnone | ⟨hs, hsome⟩ := afterTwo?_closing (escapeFrom_succ_ne run s) hrest
        · rw [hnone, ih]
          rfl
        · obtain ⟨behind, hafter, hsurplus⟩ := Option.map_eq_some_iff.mp hsome
          rw [hafter]
          simp only [hsurplus]
          obtain hs | hs := hs
          · rw [hs, escapeFrom_eq_nil_iff.mp hs]
          · rw [hs, eq_of_escapeFrom_eq hs]
      · -- an escaped quote
        have hends : endsLine ('"' :: (escapeFrom true 0 s ++ '"' :: '"' :: '"' :: rest)) =
            false := by
          simp [endsLine, isBlank]
        rw [escapeFrom_quote_of_not_lt true hrun, List.cons_append, List.cons_append,
          basicLines.eq_def]
        simp [hends, shortEscape?, ih, consTo]
    · rw [escapeFrom_cons hc, List.append_assoc, basicLines_escape hc, ih]
      rfl

/-! ### Literal texts -/

/-- A literal text is read back. -/
theorem literalText_append (h : ∀ c ∈ s, c ≠ '\'' ∧ isPlain c = true) (rest : List Char) :
    literalText (s ++ '\'' :: rest) = some (s, rest) := by
  induction s with
  | nil => simp [literalText]
  | cons c s ih =>
    obtain ⟨hc, hplain⟩ := h c List.mem_cons_self
    rw [List.cons_append, literalText, if_neg hc, if_pos hplain,
      ih fun d hd => h d (List.mem_cons_of_mem c hd)]
    rfl

private theorem le_longestRunFrom (c : Char) (run : Nat) (s : List Char) :
    run ≤ longestRunFrom c run s := by
  induction s generalizing run with
  | nil => exact Nat.le_refl run
  | cons d s ih =>
    rw [longestRunFrom]
    split
    · exact Nat.le_trans (Nat.le_succ run) (ih (run + 1))
    · exact Nat.le_max_left _ _

private theorem longestRunFrom_mono {run run' : Nat} (h : run ≤ run') (c : Char) (s : List Char) :
    longestRunFrom c run s ≤ longestRunFrom c run' s := by
  induction s generalizing run run' with
  | nil => exact h
  | cons d s ih =>
    rw [longestRunFrom, longestRunFrom]
    split
    · exact ih (Nat.add_le_add_right h 1)
    · omega

/-- A literal text over several lines is read back. -/
theorem literalLines_append (hrest : rest.head? ≠ some '\'') {run : Nat}
    (hrun : longestRunFrom '\'' run s ≤ 2) (h : ∀ c ∈ s, needsEscape c = false) :
    literalLines (s ++ '\'' :: '\'' :: '\'' :: rest) = some (s, rest) := by
  induction s generalizing run with
  | nil =>
    rw [List.nil_append, literalLines]
    simp [afterTwo?, surplusQuotes_nil hrest]
  | cons c s ih =>
    have htail : ∀ d ∈ s, needsEscape d = false := fun d hd => h d (List.mem_cons_of_mem c hd)
    rw [List.cons_append, literalLines]
    rw [longestRunFrom] at hrun
    by_cases hc : c = '\''
    · rw [if_pos hc] at hrun
      have hone : longestRunFrom '\'' 1 s ≤ 2 :=
        Nat.le_trans (longestRunFrom_mono (Nat.le_add_left 1 run) '\'' s) hrun
      -- a third quote in a row would make the run too long
      have hs : ∀ t, s ≠ '\'' :: '\'' :: t := by
        rintro t rfl
        have hthree : 3 ≤ longestRunFrom '\'' 1 ('\'' :: '\'' :: t) := by
          simpa [longestRunFrom] using le_longestRunFrom '\'' 3 t
        omega
      rw [if_pos hc, hc]
      obtain hnone | ⟨-, hsome⟩ := afterTwo?_closing hs hrest
      · rw [hnone]
        simp [ih hrun htail, consTo]
      · obtain ⟨behind, hafter, hsurplus⟩ := Option.map_eq_some_iff.mp hsome
        rw [hafter]
        simp only [hsurplus]
    · rw [if_neg hc] at hrun
      have hzero : longestRunFrom '\'' 0 s ≤ 2 := Nat.le_trans (Nat.le_max_right _ _) hrun
      rw [if_neg hc, ih hzero htail]
      have hescape := h c List.mem_cons_self
      by_cases hn : c = '\n'
      · rw [if_pos hn]
        rfl
      · have hr : c ≠ '\r' := by
          rintro rfl
          simp [needsEscape] at hescape
        rw [if_neg hn, if_neg hr, if_pos (isPlain_of_needsEscape_eq_false hescape hn)]
        rfl

/-! ### The notations -/

namespace Quotation

/-- The quote that a notation starts with. -/
def mark : Quotation → Char
  | basic => '"'
  | literal => '\''
  | basicTriple => '"'
  | literalTriple => '\''

/-- What stands behind the first quote. -/
def behindMark (s : List Char) : Quotation → List Char
  | basic => escapeFrom false 0 s ++ ['"']
  | literal => s ++ ['\'']
  | basicTriple => ['"', '"'] ++ firstBreak s ++ escapeFrom true 0 s ++ ['"', '"', '"']
  | literalTriple => ['\'', '\''] ++ firstBreak s ++ s ++ ['\'', '\'', '\'']

theorem mark_eq (q : Quotation) : q.mark = '"' ∨ q.mark = '\'' := by
  cases q
  · exact .inl rfl
  · exact .inr rfl
  · exact .inl rfl
  · exact .inr rfl

theorem write_eq (s : List Char) (q : Quotation) : q.write s = q.mark :: q.behindMark s := by
  cases q <;> rfl

/-- The texts that a notation can hold. Basic texts have escapes for all others. -/
def Holds (s : List Char) : Quotation → Prop
  | basic => True
  | literal => s ≠ [] ∧ ∀ c ∈ s, c ≠ '\'' ∧ c ≠ '\n' ∧ needsEscape c = false
  | basicTriple => True
  | literalTriple => longestRun '\'' s ≤ 2 ∧ ∀ c ∈ s, needsEscape c = false

private theorem holds_literalTriple_iff : literalTriple.Holds s ↔ fitsLiteral s = true := by
  simp only [Holds, fitsLiteral, Bool.and_eq_true, Bool.not_eq_true', List.any_eq_false,
    decide_eq_true_eq, Bool.not_eq_true]
  exact and_comm

/-- The notation that is chosen for a text can hold it. -/
theorem holds_choose (s : List Char) : (choose s).Holds s := by
  unfold choose
  dsimp only
  by_cases hbreak : s.contains '\n'
  · rw [if_pos hbreak]
    split
    · rename_i hfits
      exact holds_literalTriple_iff.mpr (Bool.and_eq_true_iff.mp hfits).2
    · trivial
  rw [if_neg hbreak]
  split
  · trivial
  rename_i hplain
  split
  · trivial
  rename_i hescape
  split
  · rename_i hquote
    refine ⟨?_, fun c hc => ⟨?_, ?_, ?_⟩⟩
    · rintro rfl
      simp at hplain
    · rintro rfl
      simp [hc] at hquote
    · rintro rfl
      simp [hc] at hbreak
    · simp only [Bool.not_eq_true, List.any_eq_false] at hescape
      simpa using hescape c hc
  split
  · trivial
  split
  · rename_i hfits
    exact holds_literalTriple_iff.mpr hfits
  · trivial

/-- The line break behind the opening quotes is dropped, and no other one is. -/
private theorem dropFirstBreak_append (hn : t.head? = some '\n' → '\n' ∈ s)
    (hr : t.head? ≠ some '\r') :
    dropFirstBreak (firstBreak s ++ t) = t := by
  rw [firstBreak]
  by_cases hbreak : s.contains '\n'
  · rw [if_pos hbreak]
    rfl
  · rw [if_neg hbreak, List.nil_append]
    cases t with
    | nil => rfl
    | cons c t =>
      have hc : c ≠ '\n' := by
        rintro rfl
        exact hbreak (List.contains_iff_mem.mpr (hn rfl))
      have hc' : c ≠ '\r' := fun heq => hr (by rw [heq, List.head?_cons])
      rw [dropFirstBreak.eq_def]
      split
      · rename_i heq
        exact absurd (List.cons.inj heq).1 hc
      · rename_i heq
        exact absurd (List.cons.inj heq).1 hc'
      · rfl

/-- What is written first for a text over several lines. -/
private theorem head?_escapeFrom_true_append (s rest : List Char) :
    let t := escapeFrom true 0 s ++ '"' :: rest
    (t.head? = some '\n' → '\n' ∈ s) ∧ t.head? ≠ some '\r' := by
  cases s with
  | nil => simp [escapeFrom]
  | cons c s =>
    by_cases hc : c = '"'
    · rw [hc, escapeFrom_quote_of_lt (by decide)]
      simp
    · rw [escapeFrom_cons hc]
      obtain ⟨e, he, -⟩ | ⟨h₁, h₂, h₃, h₄, he, -⟩ | ⟨he, -, rfl⟩ | ⟨he, -, hn, hr, -⟩ :=
        escape_cases true c
      · simp [he]
      · simp [he]
      · simp [he]
      · simp [he, hn, hr]

/-- A text is read back from a notation that can hold it, unless another quote follows. There is one
case for each notation: escapes in one line or in several (`basicText_escapeFrom`,
`basicLines_escapeFrom`), or the characters themselves (`literalText_append`,
`literalLines_append`). -/
theorem textBehind_behindMark {q : Quotation} (h : q.Holds s) (hrest : rest.head? ≠ some q.mark) :
    textBehind q.mark (q.behindMark s ++ rest) = some (s, rest) := by
  cases q with
  | basic =>
    have hone : afterTwo? '"' (escapeFrom false 0 s ++ '"' :: rest) = none := by
      cases hs : escapeFrom false 0 s with
      | nil => exact afterTwo?_cons (.inr hrest)
      | cons c t =>
        refine afterTwo?_cons (.inl fun hc => ?_)
        exact head?_escapeFrom false (Nat.not_lt_zero 0) s (by rw [hs, hc, List.head?_cons])
    simp only [mark, behindMark, List.append_assoc, List.singleton_append]
    rw [textBehind, hone]
    exact basicText_escapeFrom s rest
  | literal =>
    obtain ⟨hne, hall⟩ := h
    obtain ⟨c, t, rfl⟩ := List.exists_cons_of_ne_nil hne
    have hone : afterTwo? '\'' (c :: t ++ '\'' :: rest) = none :=
      afterTwo?_cons (.inl (hall c List.mem_cons_self).1)
    simp only [mark, behindMark, List.append_assoc, List.singleton_append]
    rw [textBehind, hone]
    refine literalText_append (fun d hd => ?_) rest
    obtain ⟨hquote, hbreak, hescape⟩ := hall d hd
    exact ⟨hquote, isPlain_of_needsEscape_eq_false hescape hbreak⟩
  | basicTriple =>
    obtain ⟨hn, hr⟩ := head?_escapeFrom_true_append s ('"' :: '"' :: rest)
    simp only [mark, behindMark, List.append_assoc, List.cons_append, List.nil_append]
    rw [textBehind]
    simp only [afterTwo?, and_self, if_true]
    rw [dropFirstBreak_append hn hr]
    exact basicLines_escapeFrom hrest 0 s
  | literalTriple =>
    obtain ⟨hrun, hall⟩ := h
    have hn : (s ++ '\'' :: '\'' :: '\'' :: rest).head? = some '\n' → '\n' ∈ s := by
      cases s with
      | nil => simp
      | cons c s =>
        intro heq
        have hc : c = '\n' := by simpa using heq
        rw [hc]
        exact List.mem_cons_self
    have hr : (s ++ '\'' :: '\'' :: '\'' :: rest).head? ≠ some '\r' := by
      cases s with
      | nil => simp
      | cons c s =>
        rintro heq
        have hc : c = '\r' := by simpa using heq
        simpa [hc, needsEscape] using hall c List.mem_cons_self
    simp only [mark, behindMark, List.append_assoc, List.cons_append, List.nil_append]
    rw [textBehind]
    simp only [afterTwo?, and_self, if_true]
    rw [dropFirstBreak_append hn hr]
    exact literalLines_append hrest hrun hall

end Quotation

end BlobCache.Toml
