/-!
# Byte strings

Stored objects are byte strings whose first zero byte ends a text header and starts a body.
`Bytes.cutAtZero?` makes that cut; it fails exactly on byte strings without a zero byte, and what
it returns spells the input again (`eq_of_cutAtZero?`).
-/

namespace BlobCache

/-- A byte string. -/
abbrev Bytes := List UInt8

namespace Bytes

/-- The bytes before the first zero byte and the bytes after it. -/
def cutAtZero? (file : Bytes) : Option (Bytes × Bytes) :=
  match file.dropWhile (· != 0) with
  | [] => none
  | _ :: body => some (file.takeWhile (· != 0), body)

/-- A header without zero bytes, a zero byte and a body are cut back into header and body. -/
theorem cutAtZero?_append {header : Bytes} (h : ∀ b ∈ header, b ≠ 0) (body : Bytes) :
    cutAtZero? (header ++ 0 :: body) = some (header, body) := by
  have hne : ∀ b ∈ header, (b != 0) = true := by simpa using h
  simp [cutAtZero?, List.dropWhile_append_of_pos hne, List.takeWhile_append_of_pos hne]

/-- The two parts of a cut, with the zero byte between them, are the whole. -/
theorem eq_of_cutAtZero? {file header body : Bytes}
    (h : cutAtZero? file = some (header, body)) : file = header ++ 0 :: body := by
  unfold cutAtZero? at h
  split at h
  · simp at h
  · rename_i b rest heq
    obtain ⟨rfl, rfl⟩ := Prod.mk.inj (Option.some.inj h)
    have hb : b = 0 := by
      have := List.head?_dropWhile_not (· != 0) file
      simpa [heq] using this
    subst hb
    rw [← heq, List.takeWhile_append_dropWhile]

/-- A cut is made at the first zero byte. -/
theorem cutAtZero?_eq_some_iff {file header body : Bytes} :
    cutAtZero? file = some (header, body) ↔ file = header ++ 0 :: body ∧ 0 ∉ header := by
  constructor
  · intro h
    refine ⟨eq_of_cutAtZero? h, fun hmem => ?_⟩
    unfold cutAtZero? at h
    split at h
    · cases h
    · cases h
      have hall := List.all_takeWhile (p := (· != (0 : UInt8))) (l := file)
      exact absurd (List.all_eq_true.mp hall 0 hmem) (by decide)
  · rintro ⟨rfl, hzero⟩
    refine cutAtZero?_append (fun b hb => ?_) body
    rintro rfl
    exact hzero hb

end Bytes

end BlobCache
