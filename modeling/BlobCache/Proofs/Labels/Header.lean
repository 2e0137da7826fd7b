import BlobCache.Proofs.Labels.Lines
import BlobCache.Proofs.Text.Utf8

/-!
# Label headers read back

Labels that can be written are read back from their header, in order and with shadowed ones
included, and the header holds no zero byte but the one at its end (`exists_of_header`). This is
what the checks of the writer are for: a key without white space ends at the first space of its
line, and a label without line breaks stays on its line.
-/

namespace BlobCache.Labels

/-! ### What the writer accepts -/

/-- A label that a header line holds. -/
structure Fits (label : String × String) : Prop where
  key_ne_empty : label.1 ≠ ""
  key : ∀ c ∈ label.1.toList, breaksKey c = false
  value : ∀ c ∈ label.2.toList, breaksValue c = false

private theorem fits_of_checkLabel {label : String × String} (h : checkLabel label = .ok ()) :
    Fits label := by
  rw [checkLabel] at h
  by_cases hempty : label.1 = ""
  · rw [if_pos hempty] at h
    cases h
  rw [if_neg hempty] at h
  by_cases hkey : label.1.toList.any breaksKey
  · rw [if_pos hkey] at h
    cases h
  rw [if_neg hkey] at h
  by_cases hvalue : label.2.toList.any breaksValue
  · rw [if_pos hvalue] at h
    cases h
  exact ⟨hempty, by simpa using hkey, by simpa using hvalue⟩

/-- The writer checks every label. -/
private theorem fits_of_forM {labels : List (String × String)}
    (h : labels.forM checkLabel = .ok ()) :
    ∀ label ∈ labels, Fits label := by
  induction labels with
  | nil => exact fun _ hm => absurd hm List.not_mem_nil
  | cons label labels ih =>
    have hcons : (checkLabel label >>= fun _ => labels.forM checkLabel) = .ok () := h
    cases hfirst : checkLabel label with
    | error e =>
      rw [hfirst] at hcons
      cases hcons
    | ok _ =>
      rw [hfirst] at hcons
      rintro other hm
      rcases List.mem_cons.mp hm with rfl | hm
      · exact fits_of_checkLabel hfirst
      · exact ih hcons other hm

/-- What a header looks like. -/
theorem header_eq {ls : Labels} {bytes : Bytes} (h : ls.header = .ok bytes) :
    (∀ label ∈ ls.toList, Fits label) ∧
      bytes = Utf8.encode (ls.toList.flatMap headerLine) ++ [0] := by
  rw [header] at h
  cases hcheck : ls.toList.forM checkLabel with
  | error e =>
    rw [hcheck] at h
    cases h
  | ok _ =>
    rw [hcheck] at h
    cases h
    exact ⟨fits_of_forM hcheck, rfl⟩

/-! ### Lines -/

/-- The characters of a label that fits do not break lines. -/
private theorem ne_break_of_fits {label : String × String} (h : Fits label) :
    ∀ c ∈ label.1.toList ++ ' ' :: label.2.toList, c ≠ '\n' ∧ c ≠ '\r' := by
  intro c hc
  rcases List.mem_append.mp hc with hk | hv
  · have hbreak := h.key c hk
    constructor
    · rintro rfl
      exact absurd hbreak (by decide)
    · rintro rfl
      exact absurd hbreak (by decide)
  · rcases List.mem_cons.mp hv with rfl | hv
    · exact ⟨by decide, by decide⟩
    · have hbreak := h.value c hv
      constructor
      · rintro rfl
        exact absurd hbreak (by decide)
      · rintro rfl
        exact absurd hbreak (by decide)

/-- A label that fits is read back from its line. -/
private theorem ofLine_of_fits {label : String × String} (h : Fits label) :
    ofLine (label.1.toList ++ ' ' :: label.2.toList) = label := by
  -- the first space of the line is the one after the key
  have hkey : ∀ c ∈ label.1.toList, (c != ' ') = true := by
    intro c hc
    have hbreak := h.key c hc
    rw [bne_iff_ne]
    rintro rfl
    exact absurd hbreak (by decide)
  rw [ofLine, List.takeWhile_append_of_pos hkey, List.dropWhile_append_of_pos hkey]
  simp

/-- Labels that fit are read back from their lines. -/
private theorem ofText_flatMap {labels : List (String × String)}
    (h : ∀ label ∈ labels, Fits label) :
    ofText (labels.flatMap headerLine) = ⟨labels⟩ := by
  have hlines : lines (labels.flatMap headerLine) =
      labels.map fun label => label.1.toList ++ ' ' :: label.2.toList := by
    induction labels with
    | nil => rfl
    | cons label labels ih =>
      have hfirst := ne_break_of_fits (h label List.mem_cons_self)
      have hline : '\n' ∉ label.1.toList ++ ' ' :: label.2.toList := fun hm => (hfirst _ hm).1 rfl
      have hreturn : '\r' ∉ label.1.toList ++ ' ' :: label.2.toList := fun hm => (hfirst _ hm).2 rfl
      rw [List.flatMap_cons, headerLine, List.append_assoc, List.singleton_append,
        lines_append hline, withoutReturn_eq_self hreturn,
        ih fun other hm => h other (List.mem_cons_of_mem label hm), List.map_cons]
  -- no line is dropped as empty
  have hkeep : ∀ line ∈ labels.map fun label => label.1.toList ++ ' ' :: label.2.toList,
      (line != []) = true := by
    intro line hm
    obtain ⟨label, -, rfl⟩ := List.mem_map.mp hm
    simp
  rw [ofText, hlines, List.filter_eq_self.mpr hkeep, List.map_map]
  congr 1
  calc labels.map (ofLine ∘ fun label => label.1.toList ++ ' ' :: label.2.toList)
      = labels.map id := List.map_congr_left fun label hm => ofLine_of_fits (h label hm)
    _ = labels := List.map_id labels

/-- The zero character stands in no line. -/
private theorem zero_not_mem_flatMap {labels : List (String × String)}
    (h : ∀ label ∈ labels, Fits label) :
    '\x00' ∉ labels.flatMap headerLine := by
  intro hm
  obtain ⟨label, hl, hz⟩ := List.mem_flatMap.mp hm
  rw [headerLine] at hz
  rcases List.mem_append.mp hz with hz | hz
  · rcases List.mem_append.mp hz with hk | hv
    · exact absurd ((h label hl).key _ hk) (by decide)
    · rcases List.mem_cons.mp hv with heq | hv
      · exact absurd heq (by decide)
      · exact absurd ((h label hl).value _ hv) (by decide)
  · exact absurd (List.mem_singleton.mp hz) (by decide)

/-- A header is a text without zero bytes, from which the labels are read back, and a zero byte. The
writer lets labels through that fit on a line (`fits_of_forM`); such a line is read back as the
label (`ofLine_of_fits`), and lines are read one after the other (`ofText_flatMap`). -/
theorem exists_of_header {ls : Labels} {bytes : Bytes} (h : ls.header = .ok bytes) :
    ∃ text, bytes = text ++ [0] ∧ (∀ b ∈ text, b ≠ 0) ∧ ofHeader text = .ok ls := by
  obtain ⟨hfits, rfl⟩ := header_eq h
  refine ⟨_, rfl, fun b hb => Utf8.ne_zero_of_mem_encode (zero_not_mem_flatMap hfits) hb, ?_⟩
  rw [ofHeader, Utf8.decode_encode, Except.map, ofText_flatMap hfits]

end BlobCache.Labels
