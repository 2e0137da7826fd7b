import BlobCache.Proofs.Labels.Format
import BlobCache.Proofs.Text.WellFormed
import Mathlib.Data.List.Forall2
import Mathlib.Data.List.TakeWhile

/-!
# The grammar of label headers

Which bytes are read as labels, and as which. A header is any well-formed UTF-8. Its labels are what
its lines say, in order and without the empty lines (`ofHeader_eq_ok_iff`); what one line says is
told by the two rules of `Labels.Says`, and what the lines are by those of `Labels.HasLines`.

A header that ends with its last line can be followed by another one: both are read as if they stood
alone (`ofHeader_append_eq_ok_iff`).
-/

namespace BlobCache.Labels

/-- What a line says: a key, and behind the first space its value. -/
inductive Says : List Char → String × String → Prop
  /-- A line without a space is a key, with the empty text as its value. -/
  | key {line : List Char} (h : ' ' ∉ line) : Says line (String.ofList line, "")
  /-- The value may hold more spaces. -/
  | keyValue {key : List Char} (value : List Char) (h : ' ' ∉ key) :
    Says (key ++ ' ' :: value) (String.ofList key, String.ofList value)

variable {line text rest : List Char} {label : String × String} {ls : Labels}

/-! ### What lines say -/

/-- Up to the first space every character is taken. -/
private theorem bne_space_of_not_mem (h : ' ' ∉ line) : ∀ c ∈ line, (c != ' ') = true :=
  fun _ hc => bne_iff_ne.mpr fun heq => h (heq ▸ hc)

/-- The label that a line says is read from it. -/
theorem Says.ofLine_eq (h : Says line label) : ofLine line = label := by
  cases h with
  | key hline =>
    have hall := bne_space_of_not_mem hline
    rw [ofLine, List.takeWhile_eq_self_iff.mpr hall, List.dropWhile_eq_nil_iff.mpr hall]
    rfl
  | keyValue value hkey =>
    have hall := bne_space_of_not_mem hkey
    rw [ofLine, List.takeWhile_append_of_pos hall, List.dropWhile_append_of_pos hall]
    simp

/-- The label that is read from a line is what the line says. -/
private theorem says_ofLine (line : List Char) : Says line (ofLine line) := by
  by_cases hmem : ' ' ∈ line
  · obtain ⟨key, value, rfl, hkey⟩ := List.eq_append_cons_of_mem hmem
    have h := Says.keyValue value hkey
    rwa [h.ofLine_eq]
  · have h := Says.key hmem
    rwa [h.ofLine_eq]

theorem says_iff : Says line label ↔ ofLine line = label := by
  constructor
  · exact Says.ofLine_eq
  · rintro rfl
    exact says_ofLine line

/-- Labels are read line by line. -/
private theorem forall₂_says_iff {ls : List (List Char)} {labels : List (String × String)} :
    List.Forall₂ Says ls labels ↔ ls.map ofLine = labels := by
  have hlabels : Says = fun line label => ofLine line = label := by
    funext line label
    exact propext says_iff
  rw [hlabels, ← List.forall₂_map_left_iff (R := Eq), List.forall₂_eq_eq_eq]

/-- The labels of a text are those that its lines say. -/
theorem ofText_eq_iff : ofText text = ls ↔ ∃ all, HasLines text all ∧
    List.Forall₂ Says (all.filter (· != [])) ls.toList := by
  simp only [← lines_eq_iff, exists_eq_left', forall₂_says_iff]
  constructor
  · rintro rfl
    rfl
  · intro hlabels
    rw [ofText, hlabels]

/-! ### Headers -/

private theorem ofHeader_eq_ok {bytes : Bytes} :
    ofHeader bytes = .ok ls ↔ ∃ text, bytes = Utf8.encode text ∧ ofText text = ls := by
  constructor
  · intro h
    rw [ofHeader] at h
    cases hdecode : Utf8.decode bytes with
    | error fault =>
      rw [hdecode] at h
      cases h
    | ok text =>
      rw [hdecode] at h
      exact ⟨text, Utf8.decode_eq_ok_iff.mp hdecode, Except.ok.inj h⟩
  · rintro ⟨text, rfl, rfl⟩
    rw [ofHeader, Utf8.decode_encode]
    rfl

/-- A header that cannot be read is not well-formed UTF-8. -/
theorem exists_ofHeader_error_iff {bytes : Bytes} :
    (∃ fault, ofHeader bytes = .error fault) ↔ ¬Utf8.WellFormed bytes := by
  rw [← Utf8.exists_decode_error_iff, ofHeader]
  refine exists_congr fun fault => ?_
  cases Utf8.decode bytes with
  | error other => rw [Except.map, Except.error.injEq, Except.error.injEq]
  | ok text =>
    constructor
    · intro h
      cases h
    · intro h
      cases h

/-- A header that can be read is well-formed UTF-8. -/
theorem exists_ofHeader_iff {bytes : Bytes} :
    (∃ ls, ofHeader bytes = .ok ls) ↔ Utf8.WellFormed bytes := by
  constructor
  · rintro ⟨ls, h⟩
    obtain ⟨text, htext, -⟩ := ofHeader_eq_ok.mp h
    exact ⟨text, htext⟩
  · rintro ⟨text, htext⟩
    exact ⟨ofText text, ofHeader_eq_ok.mpr ⟨text, htext, rfl⟩⟩

/-- A header is read as the labels that the lines of its text say. -/
theorem ofHeader_eq_ok_iff {bytes : Bytes} : ofHeader bytes = .ok ls ↔
    ∃ text all, bytes = Utf8.encode text ∧ HasLines text all ∧
      List.Forall₂ Says (all.filter (· != [])) ls.toList := by
  rw [ofHeader_eq_ok]
  constructor
  · rintro ⟨text, hbytes, hls⟩
    obtain ⟨all, hall, hlabels⟩ := ofText_eq_iff.mp hls
    exact ⟨text, all, hbytes, hall, hlabels⟩
  · rintro ⟨text, all, hbytes, hall, hlabels⟩
    exact ⟨text, hbytes, ofText_eq_iff.mpr ⟨all, hall, hlabels⟩⟩

/-! ### One header behind another -/

/-- The labels of a text that is ended do not depend on what follows. -/
private theorem ofText_append (h : IsEnded text) (rest : List Char) :
    ofText (text ++ rest) = ⟨(ofText text).toList ++ (ofText rest).toList⟩ := by
  rw [ofText, ofText, ofText, lines_append_of_ended h, List.filter_append, List.map_append]

/-- Where bytes that end with a line stand in front of others, a text of both is the text of the
ones and that of the others. -/
private theorem exists_of_encode_eq {first others : Bytes}
    (hfirst : first = [] ∨ first.getLast? = some 10) (h : Utf8.encode text = first ++ others) :
    ∃ s₁ s₂, text = s₁ ++ s₂ ∧ IsEnded s₁ ∧ Utf8.encode s₁ = first ∧ Utf8.encode s₂ = others := by
  obtain rfl | hlast := hfirst
  · exact ⟨[], text, rfl, .inl rfl, rfl, h⟩
  · obtain ⟨before, rfl⟩ := List.getLast?_eq_some_iff.mp hlast
    rw [List.append_assoc] at h
    obtain ⟨s₁, s₂, rfl, rfl, rfl⟩ :=
      Utf8.exists_of_encode_eq_append (c := '\n') (by decide) h
    refine ⟨s₁ ++ ['\n'], s₂, (List.append_cons s₁ '\n' s₂), .inr List.getLast?_concat, ?_, rfl⟩
    rw [Utf8.encode_append]
    rfl

/-- Behind a header that ends with its last line, another one is read as if it stood alone. -/
theorem ofHeader_append_eq_ok_iff {first others : Bytes}
    (hfirst : first = [] ∨ first.getLast? = some 10) : ofHeader (first ++ others) = .ok ls ↔
      ∃ ls₁ ls₂, ofHeader first = .ok ls₁ ∧ ofHeader others = .ok ls₂ ∧
        ls = ⟨ls₁.toList ++ ls₂.toList⟩ := by
  constructor
  · intro h
    obtain ⟨text, hbytes, rfl⟩ := ofHeader_eq_ok.mp h
    obtain ⟨s₁, s₂, rfl, hended, h₁, h₂⟩ := exists_of_encode_eq hfirst hbytes.symm
    exact ⟨ofText s₁, ofText s₂, ofHeader_eq_ok.mpr ⟨s₁, h₁.symm, rfl⟩,
      ofHeader_eq_ok.mpr ⟨s₂, h₂.symm, rfl⟩, ofText_append hended s₂⟩
  · rintro ⟨ls₁, ls₂, hread₁, hread₂, rfl⟩
    obtain ⟨t₁, rfl, rfl⟩ := ofHeader_eq_ok.mp hread₁
    obtain ⟨t₂, rfl, rfl⟩ := ofHeader_eq_ok.mp hread₂
    -- the text of `first` is ended because its bytes are
    obtain ⟨s₁, s₂, htext, hended, h₁, h₂⟩ :=
      exists_of_encode_eq hfirst (Utf8.encode_append t₁ t₂)
    obtain rfl : s₁ = t₁ := Utf8.encode_injective h₁
    rw [← ofText_append hended, ofHeader_eq_ok]
    exact ⟨s₁ ++ t₂, (Utf8.encode_append s₁ t₂).symm, rfl⟩

/-- **The grammar.** Exactly the bytes that are no well-formed UTF-8 are refused; the others are
read as the labels that their lines say, in order and without the empty lines
(`ofHeader_eq_ok_iff`). A header that is empty or ends with a line feed can be followed by another
one, which adds its labels (`ofHeader_append_eq_ok_iff`). What is written for labels that were read
is read as these labels again (`ofHeader_dropLast`). Nothing is assumed of the bytes. -/
theorem ofHeader_grammar (bytes : Bytes) :
    ((∃ fault, ofHeader bytes = .error fault) ↔ ¬Utf8.WellFormed bytes) ∧
      (∀ ls, ofHeader bytes = .ok ls ↔ ∃ text all, bytes = Utf8.encode text ∧
        HasLines text all ∧ List.Forall₂ Says (all.filter (· != [])) ls.toList) ∧
      (bytes = [] ∨ bytes.getLast? = some 10 → ∀ (others : Bytes) ls,
        ofHeader (bytes ++ others) = .ok ls ↔ ∃ ls₁ ls₂, ofHeader bytes = .ok ls₁ ∧
          ofHeader others = .ok ls₂ ∧ ls = ⟨ls₁.toList ++ ls₂.toList⟩) ∧
      ∀ ls header, ofHeader bytes = .ok ls → ls.header = .ok header →
        ofHeader header.dropLast = .ok ls :=
  ⟨exists_ofHeader_error_iff, fun _ => ofHeader_eq_ok_iff,
    fun hended _ _ => ofHeader_append_eq_ok_iff hended, fun _ _ _ hheader =>
    ofHeader_dropLast hheader⟩

/-- A blank line says nothing, and a space in front of a line is behind the empty key. -/
example : (ofHeader (Utf8.encode "b two words\n\r\n x\nempty".toList)).toOption =
    some ⟨[("b", "two words"), ("", "x"), ("empty", "")]⟩ := by
  decide +kernel

end BlobCache.Labels
