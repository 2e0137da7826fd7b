import BlobCache.Labels.Header

/-!
# Lines

What the lines of a text are, said without reading it from the front (`Labels.HasLines`): a line
reaches up to the next line feed, without one carriage return directly before it, and what is left
behind the last line feed is a line too, unless there is nothing left. A text has exactly the lines
that are read from it (`lines_eq_iff`).

The lines of a text that ends with its last line do not depend on what follows, so two such texts
have the lines of the one and then those of the other (`lines_append_of_ended`).
-/

namespace BlobCache.Labels

/-- A line without the carriage return at its end, if there is one. -/
def withoutReturn (line : List Char) : List Char :=
  if line.getLast? = some '\r' then line.dropLast else line

/-- The lines of a text. -/
inductive HasLines : List Char → List (List Char) → Prop
  /-- A text without characters has no line. -/
  | nil : HasLines [] []
  /-- The last line need not be ended. -/
  | last {line : List Char} (hne : line ≠ []) (hline : '\n' ∉ line) : HasLines line [line]
  /-- A line ends at a line feed, or at a carriage return and a line feed. -/
  | ended {line rest : List Char} {lines : List (List Char)} (hline : '\n' ∉ line)
    (hrest : HasLines rest lines) : HasLines (line ++ '\n' :: rest) (withoutReturn line :: lines)

/-- The text is empty, or its last line is ended. -/
def IsEnded (text : List Char) : Prop :=
  text = [] ∨ text.getLast? = some '\n'

variable {c d : Char} {line text rest : List Char} {ls : List (List Char)}

/-- A line without carriage return is all there. -/
theorem withoutReturn_eq_self (h : '\r' ∉ line) : withoutReturn line = line :=
  if_neg fun hlast => h (List.mem_of_getLast? hlast)

/-- Only the end of a line matters. -/
private theorem withoutReturn_cons_cons (c d : Char) (line : List Char) :
    withoutReturn (c :: d :: line) = c :: withoutReturn (d :: line) := by
  rw [withoutReturn, withoutReturn, List.getLast?_cons_cons, List.dropLast_cons_cons]
  split
  · rfl
  · rfl

/-! ### Reading lines -/

/-- A character that ends no line, not even together with the next one, belongs to the first. -/
theorem lines_cons (hc : c ≠ '\n') (hreturn : c = '\r' → text.head? ≠ some '\n') :
    lines (c :: text) = extendFirst c (lines text) := by
  rw [lines, if_neg hc]
  rintro rest rfl rfl
  exact hreturn rfl rfl

/-- The first line is read up to the first line feed. -/
theorem lines_append (h : '\n' ∉ line) (rest : List Char) :
    lines (line ++ '\n' :: rest) = withoutReturn line :: lines rest := by
  induction line with
  | nil => rfl
  | cons c line ih =>
    obtain ⟨hc, hline⟩ := List.ne_and_not_mem_of_not_mem_cons h
    have hc : c ≠ '\n' := hc.symm
    cases line with
    | nil =>
      by_cases hreturn : c = '\r'
      · subst hreturn
        rfl
      · rw [List.singleton_append, lines_cons hc fun heq => absurd heq hreturn,
          withoutReturn_eq_self (by simpa using Ne.symm hreturn)]
        rfl
    | cons d line =>
      have hnext : (d :: line ++ '\n' :: rest).head? ≠ some '\n' := fun heq =>
        hline (Option.some.inj heq ▸ List.mem_cons_self)
      rw [List.cons_append, lines_cons hc fun _ => hnext, ih hline, withoutReturn_cons_cons]
      rfl

/-- What has no line feed is one line. -/
private theorem lines_of_not_mem (hne : line ≠ []) (h : '\n' ∉ line) : lines line = [line] := by
  induction line with
  | nil => exact absurd rfl hne
  | cons c line ih =>
    obtain ⟨hc, hline⟩ := List.ne_and_not_mem_of_not_mem_cons h
    have hnext : line.head? ≠ some '\n' := fun heq => hline (List.mem_of_head? heq)
    rw [lines_cons hc.symm fun _ => hnext]
    cases line with
    | nil => rfl
    | cons d line =>
      rw [ih (List.cons_ne_nil d line) hline]
      rfl

/-! ### The lines of a text -/

/-- The lines that a text has are read from it. -/
theorem HasLines.lines_eq (h : HasLines text ls) : lines text = ls := by
  induction h with
  | nil => rfl
  | last hne hline => exact lines_of_not_mem hne hline
  | ended hline _ ih => rw [lines_append hline, ih]

/-- The lines that are read from a text are the lines that it has. -/
theorem hasLines_lines (text : List Char) : HasLines text (lines text) := by
  -- by the number of characters, since what is left behind a line feed is shorter
  induction hlength : text.length using Nat.strongRecOn generalizing text with
  | ind n ih =>
    by_cases hmem : '\n' ∈ text
    · obtain ⟨line, rest, rfl, hline⟩ := List.eq_append_cons_of_mem hmem
      have hshorter : rest.length < n := by
        rw [← hlength, List.length_append, List.length_cons]
        omega
      rw [lines_append hline]
      exact .ended hline (ih rest.length hshorter rest rfl)
    · cases text with
      | nil => exact .nil
      | cons c text =>
        rw [lines_of_not_mem (List.cons_ne_nil c text) hmem]
        exact .last (List.cons_ne_nil c text) hmem

/-- What is read from a text are its lines. -/
theorem lines_eq_iff : lines text = ls ↔ HasLines text ls := by
  constructor
  · rintro rfl
    exact hasLines_lines text
  · exact HasLines.lines_eq

/-- Behind a text that is ended, lines are read as if they stood alone. -/
theorem lines_append_of_ended (h : IsEnded text) (rest : List Char) :
    lines (text ++ rest) = lines text ++ lines rest := by
  have hall := hasLines_lines text
  generalize lines text = ls at hall
  induction hall with
  | nil => rfl
  | @last line hne hline =>
    obtain hnil | hlast := h
    · exact absurd hnil hne
    · exact absurd (List.mem_of_getLast? hlast) hline
  | @ended line more ls hline hmore ih =>
    have hended : IsEnded more := by
      obtain hnil | hlast := h
      · exact absurd hnil (List.append_ne_nil_of_right_ne_nil _ (List.cons_ne_nil _ _))
      · cases more with
        | nil => exact .inl rfl
        | cons c more =>
          rw [List.getLast?_append, List.getLast?_cons_cons, List.getLast?_cons,
            Option.some_or] at hlast
          exact .inr ((List.getLast?_cons).trans hlast)
    rw [List.append_assoc, List.cons_append, lines_append hline, ih hended, List.cons_append]

/-- Only one carriage return goes with the line feed, and none without it. -/
example : lines "a\r\r\n\r\nb\r".toList = ["a\r".toList, [], "b\r".toList] := by
  decide +kernel

end BlobCache.Labels
