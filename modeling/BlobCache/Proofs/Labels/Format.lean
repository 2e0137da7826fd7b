import BlobCache.Proofs.Labels.Header

/-!
# The format of label headers

Which labels have a header, and what a header tells of what it was written for.

* **Which**: the labels of which every key and every value can stand on a line
  (`exists_header_iff`). The condition, `Labels.Writable`, names the characters themselves and not
  the checks of the writer.
* **Round trip**: the labels are read back, in order, with shadowed labels and empty values
  included (`ofHeader_dropLast`).
* **Unique parsing**: the one zero byte of a header is its last, so what follows a header cannot be
  taken for a part of it (`cutAtZero?_header`), and the bytes of a file decide its labels and its
  body (`header_determines`).
-/

namespace BlobCache.Labels

/-- Labels that a header can hold: a key is not empty and has no white space and no NUL, and a value
has no line break and no NUL. -/
def Writable (ls : Labels) : Prop :=
  ∀ label ∈ ls.toList, label.1 ≠ "" ∧
    (∀ c ∈ label.1.toList, isWhiteSpace c = false ∧ c ≠ '\x00') ∧
    ∀ c ∈ label.2.toList, c ≠ '\n' ∧ c ≠ '\r' ∧ c ≠ '\x00'

instance (ls : Labels) : Decidable ls.Writable :=
  inferInstanceAs (Decidable (∀ label ∈ ls.toList, _ ∧ (∀ c ∈ label.1.toList, _ ∧ _) ∧
    ∀ c ∈ label.2.toList, _ ∧ _ ∧ _))

/-! ### Which labels have a header -/

theorem breaksKey_eq_false_iff {c : Char} :
    breaksKey c = false ↔ isWhiteSpace c = false ∧ c ≠ '\x00' := by
  rw [breaksKey, Bool.or_eq_false_iff, beq_eq_false_iff_ne]

theorem breaksValue_eq_false_iff {c : Char} :
    breaksValue c = false ↔ c ≠ '\n' ∧ c ≠ '\r' ∧ c ≠ '\x00' := by
  rw [breaksValue, Bool.or_eq_false_iff, Bool.or_eq_false_iff, beq_eq_false_iff_ne,
    beq_eq_false_iff_ne, beq_eq_false_iff_ne, and_assoc]

/-- Labels can be written if each of them fits on a line. -/
theorem writable_iff {ls : Labels} : ls.Writable ↔ ∀ label ∈ ls.toList, Fits label := by
  refine forall₂_congr fun label _ => ⟨fun ⟨hempty, hkey, hvalue⟩ => ?_, fun h => ?_⟩
  · exact ⟨hempty, fun c hc => breaksKey_eq_false_iff.mpr (hkey c hc),
      fun c hc => breaksValue_eq_false_iff.mpr (hvalue c hc)⟩
  · exact ⟨h.key_ne_empty, fun c hc => breaksKey_eq_false_iff.mp (h.key c hc),
      fun c hc => breaksValue_eq_false_iff.mp (h.value c hc)⟩

/-- The writer accepts a label that fits. -/
private theorem checkLabel_of_fits {label : String × String} (h : Fits label) :
    checkLabel label = .ok () := by
  have hkey : label.1.toList.any breaksKey = false := List.any_eq_false.mpr fun c hc => by
    rw [h.key c hc]
    exact Bool.false_ne_true
  have hvalue : label.2.toList.any breaksValue = false := List.any_eq_false.mpr fun c hc => by
    rw [h.value c hc]
    exact Bool.false_ne_true
  rw [checkLabel, if_neg h.key_ne_empty, hkey, if_neg Bool.false_ne_true, hvalue,
    if_neg Bool.false_ne_true]

private theorem forM_of_fits {labels : List (String × String)} (h : ∀ label ∈ labels, Fits label) :
    labels.forM checkLabel = .ok () := by
  induction labels with
  | nil => rfl
  | cons label labels ih =>
    have hfirst := checkLabel_of_fits (h label List.mem_cons_self)
    have hrest := ih fun other hm => h other (List.mem_cons_of_mem label hm)
    change (checkLabel label >>= fun _ => labels.forM checkLabel) = .ok ()
    rw [hfirst]
    exact hrest

/-- There is a header for the labels that can be written, and for no others. -/
theorem exists_header_iff {ls : Labels} : (∃ bytes, ls.header = .ok bytes) ↔ ls.Writable := by
  rw [writable_iff]
  constructor
  · rintro ⟨bytes, h⟩
    exact (header_eq h).1
  · intro hfits
    refine ⟨Utf8.encode (ls.toList.flatMap headerLine) ++ [0], ?_⟩
    rw [header, forM_of_fits hfits]
    rfl

/-! ### What a header tells -/

/-- The only zero byte of a header is its last. -/
theorem count_zero_header {ls : Labels} {bytes : Bytes} (h : ls.header = .ok bytes) :
    bytes.count 0 = 1 ∧ bytes.getLast? = some 0 := by
  obtain ⟨text, rfl, hzero, -⟩ := exists_of_header h
  have hnone : text.count 0 = 0 := List.count_eq_zero.mpr fun hmem => hzero 0 hmem rfl
  refine ⟨?_, List.getLast?_concat⟩
  rw [List.count_append, hnone]
  rfl

/-- Without its zero byte, a header reads back. -/
theorem ofHeader_dropLast {ls : Labels} {bytes : Bytes} (h : ls.header = .ok bytes) :
    ofHeader bytes.dropLast = .ok ls := by
  obtain ⟨text, rfl, -, hread⟩ := exists_of_header h
  rw [List.dropLast_concat]
  exact hread

/-- A file that starts with a header is cut behind it. -/
theorem cutAtZero?_header {ls : Labels} {bytes : Bytes} (h : ls.header = .ok bytes)
    (body : Bytes) : (bytes ++ body).cutAtZero? = some (bytes.dropLast, body) := by
  obtain ⟨text, rfl, hzero, -⟩ := exists_of_header h
  rw [List.dropLast_concat, List.append_assoc]
  exact Bytes.cutAtZero?_append hzero body

/-- Files that are equal and start with headers have the same labels and the same body. -/
theorem header_determines {ls ls' : Labels} {bytes bytes' body body' : Bytes}
    (h : ls.header = .ok bytes) (h' : ls'.header = .ok bytes')
    (heq : bytes ++ body = bytes' ++ body') : ls = ls' ∧ body = body' := by
  have hcut := cutAtZero?_header h body
  rw [heq, cutAtZero?_header h' body'] at hcut
  obtain ⟨htext, rfl⟩ := Prod.mk.inj (Option.some.inj hcut)
  have hread := ofHeader_dropLast h'
  rw [htext, ofHeader_dropLast h] at hread
  exact ⟨Except.ok.inj hread, rfl⟩

/-- **The format.** Exactly the labels that can be written have a header (`exists_header_iff`). It
ends in its only zero byte, by which a file is cut into header and body (`cutAtZero?_header`);
without this byte it reads back as the labels (`ofHeader_dropLast`); and files with headers are
equal only if their labels and their bodies are (`header_determines`). -/
theorem header_format (ls : Labels) :
    ((∃ bytes, ls.header = .ok bytes) ↔ ls.Writable) ∧
      (∀ bytes, ls.header = .ok bytes →
        bytes.count 0 = 1 ∧ bytes.getLast? = some 0 ∧ ofHeader bytes.dropLast = .ok ls ∧
          ∀ body : Bytes, (bytes ++ body).cutAtZero? = some (bytes.dropLast, body)) ∧
      ∀ (ls' : Labels) (bytes bytes' body body' : Bytes),
        ls.header = .ok bytes → ls'.header = .ok bytes' → bytes ++ body = bytes' ++ body' →
          ls = ls' ∧ body = body' := by
  refine ⟨exists_header_iff, fun bytes h => ?_,
    fun ls' bytes bytes' body body' => header_determines⟩
  obtain ⟨hcount, hlast⟩ := count_zero_header h
  exact ⟨hcount, hlast, ofHeader_dropLast h, cutAtZero?_header h⟩

/-- Both labels under one key are read back, the empty value included. -/
example : (header ⟨[("k", "a b"), ("k", "")]⟩).toOption.bind (ofHeader ·.dropLast |>.toOption) =
    some ⟨[("k", "a b"), ("k", "")]⟩ := by
  decide +kernel

end BlobCache.Labels
