import Mathlib.Data.List.TakeWhile
import BlobCache.Path

/-!
# The folder above a path

The path of the folder above is the path without its last step: they start alike, and what the path
has beyond the steps of the folder is one step and idle ones (`Path.steps_of_parent?`). A path that
stands above another one is put together from its pieces and has no idle ones at its end
(`Path.IsTidy`), so from there on it is one step at a time, with idle steps before it at most
(`Path.steps_of_parent?_of_isTidy`), until none is left (`Path.steps_eq_nil_of_parent?_eq_none`).
-/

namespace BlobCache.Path

variable {p q : Path} {start below : List (List Char)} {piece : List Char}

/-! ### Pieces -/

theorem isIdle_iff : isIdle piece = true ↔ piece = [] ∨ piece = ['.'] := by
  rw [isIdle, Bool.or_eq_true, beq_iff_eq, beq_iff_eq]

/-- What a text is split at is in none of the pieces. -/
private theorem not_mem_of_mem_splitOn {x : Char} {text : List Char} (h : piece ∈ text.splitOn x) :
    x ∉ piece := by
  induction hn : text.length using Nat.strongRecOn generalizing text with
  | ind n ih =>
    by_cases hx : x ∈ text
    · obtain ⟨first, rest, rfl, hfirst⟩ := List.eq_append_cons_of_mem hx
      rw [List.splitOn_append_cons_self, List.splitOn_eq_singleton hfirst, List.singleton_append,
        List.mem_cons] at h
      obtain rfl | h := h
      · exact hfirst
      · rw [List.length_append, List.length_cons] at hn
        exact ih rest.length (by omega) h rfl
    · rw [List.splitOn_eq_singleton hx, List.mem_singleton] at h
      rwa [h]

/-- The names among pieces. -/
def names (pieces : List (List Char)) : List String :=
  (pieces.filter (· != [])).map String.ofList

theorem steps_eq_names (p : Path) : p.steps = names p.segments := rfl

theorem length_steps_le (p : Path) : p.steps.length ≤ p.segments.length := by
  rw [steps_eq_names, names, List.length_map]
  exact List.length_filter_le _ _

theorem steps_of_text_eq_empty (h : p.text = "") : p.steps = [] := by
  rw [steps, segments, h]
  rfl

theorem names_append (pieces more : List (List Char)) :
    names (pieces ++ more) = names pieces ++ names more := by
  rw [names, List.filter_append, List.map_append]
  rfl

/-- Idle pieces are dots, as far as they are names. -/
private theorem eq_dot_of_mem_names {pieces : List (List Char)}
    (h : ∀ piece ∈ pieces, isIdle piece = true) {name : String}
    (hname : name ∈ names pieces) : name = "." := by
  obtain ⟨piece, hpiece, rfl⟩ := List.mem_map.mp hname
  obtain ⟨hmem, hne⟩ := List.mem_filter.mp hpiece
  obtain rfl | rfl := isIdle_iff.mp (h piece hmem)
  · simp at hne
  · rfl

/-! ### Tidy paths -/

/-- The parts of a path without idle pieces at its end, nor at its beginning if that is relative. -/
structure IsParts (start below : List (List Char)) : Prop where
  start_cases : start = [] ∨ start = [['/']] ∨ start = [['.']]
  no_slash : ∀ piece ∈ below, '/' ∉ piece
  first : start = [] → ∀ piece ∈ below.head?, isIdle piece = false
  last : ∀ piece ∈ below.getLast?, isIdle piece = false

/-- A path that is put together from its parts. -/
def IsTidy (p : Path) : Prop :=
  ∃ start below, IsParts start below ∧ p = ofParts start below

/-- The pieces that are written for the pieces below the start. -/
def written (below : List (List Char)) : List (List Char) :=
  if below = [] then [[]] else below

private theorem names_written (below : List (List Char)) : names (written below) = names below := by
  rw [written]
  split
  · rename_i h
    rw [h]
    rfl
  · rfl

/-- Only a path that starts at the root starts with an empty piece and has another one. -/
private theorem head?_segments_of_isAbsolute (h : p.isAbsolute = true) :
    p.segments.head? = some [] := by
  rw [isAbsolute, beq_iff_eq] at h
  obtain ⟨text, htext⟩ := List.head?_eq_some_iff.mp h
  have hsplit := List.splitOn_append_cons_self (a := '/') [] text
  rw [List.nil_append, List.splitOn_nil] at hsplit
  rw [segments, htext, hsplit]
  rfl

namespace IsParts

variable (h : IsParts start below)

include h

private theorem splitOn_intercalate : (['/'].intercalate below).splitOn '/' = written below := by
  rw [written]
  split
  · rename_i hbelow
    rw [hbelow, List.intercalate_nil, List.splitOn_nil]
  · rename_i hbelow
    exact List.splitOn_intercalate '/' h.no_slash hbelow

end IsParts

/-- A relative path is written as its pieces. -/
private theorem segments_ofParts_nil (h : IsParts [] below) :
    (ofParts [] below).segments = written below := by
  rw [segments, ofParts, String.toList_ofList]
  exact h.splitOn_intercalate

/-- An absolute path has an empty piece before the others. -/
private theorem segments_ofParts_root (h : IsParts [['/']] below) :
    (ofParts [['/']] below).segments = [] :: written below := by
  have hsplit := List.splitOn_append_cons_self (a := '/') [] (['/'].intercalate below)
  rw [List.nil_append, List.splitOn_nil, h.splitOn_intercalate] at hsplit
  rw [segments, ofParts, String.toList_ofList]
  exact hsplit

/-- Behind a dot that is spelled out, other pieces need a slash. -/
private theorem ofParts_dot (below : List (List Char)) : ofParts [['.']] below =
    ⟨String.ofList (if below = [] then ['.'] else ['.'] ++ '/' :: ['/'].intercalate below)⟩ :=
  rfl

/-- A dot that is spelled out is a piece of its own. -/
private theorem segments_ofParts_dot (h : IsParts [['.']] below) :
    (ofParts [['.']] below).segments = ['.'] :: below := by
  rw [segments, ofParts_dot, String.toList_ofList]
  by_cases hbelow : below = []
  · rw [if_pos hbelow, hbelow]
    exact List.splitOn_eq_singleton (by decide)
  · have hsplit := List.splitOn_append_cons_self (a := '/') ['.'] (['/'].intercalate below)
    rw [h.splitOn_intercalate, written, if_neg hbelow] at hsplit
    rw [if_neg hbelow, hsplit, List.splitOn_eq_singleton (by decide)]
    rfl

namespace IsParts

variable (h : IsParts start below)

include h

/-- A path that is put together starts as its parts say. -/
theorem isAbsolute_ofParts : (ofParts start below).isAbsolute = (start == [['/']]) := by
  obtain rfl | rfl | rfl := h.start_cases
  · refine Bool.eq_false_iff.mpr fun habsolute => ?_
    have hhead := head?_segments_of_isAbsolute habsolute
    rw [segments_ofParts_nil h, written] at hhead
    split at hhead
    · rename_i hbelow
      simp [hbelow, isAbsolute, ofParts] at habsolute
    · exact absurd (h.first rfl [] hhead) (by decide)
  · simp [isAbsolute, ofParts]
  · rw [isAbsolute, ofParts_dot, String.toList_ofList]
    by_cases hbelow : below = []
    · rw [if_pos hbelow]
      rfl
    · rw [if_neg hbelow]
      rfl

theorem start_ofParts : (ofParts start below).start = start := by
  have habsolute := h.isAbsolute_ofParts
  rw [Path.start, habsolute]
  obtain rfl | rfl | rfl := h.start_cases
  · rw [segments_ofParts_nil h, if_neg (by decide), if_neg]
    intro hhead
    rw [written] at hhead
    split at hhead
    · cases hhead
    · exact absurd (h.first rfl ['.'] hhead) (by decide)
  · rfl
  · rw [segments_ofParts_dot h]
    rfl

/-- The steps of a path that is put together. -/
theorem steps_ofParts : (ofParts start below).steps =
    (if start = [['.']] then ["."] else []) ++ names below := by
  change names (ofParts start below).segments = _
  obtain rfl | rfl | rfl := h.start_cases
  · rw [segments_ofParts_nil h, names_written]
    rfl
  · rw [segments_ofParts_root h]
    exact names_written below
  · rw [segments_ofParts_dot h]
    rfl

/-- No idle piece at the end is to be passed over. -/
theorem reversedBody_ofParts : (ofParts start below).reversedBody = below.reverse := by
  have hlast : below.reverse.dropWhile isIdle = below.reverse := by
    cases hrev : below.reverse with
    | nil => rfl
    | cons piece more =>
      have hpiece : isIdle piece = false := by
        refine h.last piece ?_
        rw [← List.head?_reverse, hrev, List.head?_cons]
        exact rfl
      simp [hpiece]
  have hwritten : (written below).reverse.dropWhile isIdle = below.reverse := by
    rw [written]
    split
    · rename_i hbelow
      rw [hbelow]
      rfl
    · exact hlast
  rw [reversedBody, h.start_ofParts]
  obtain rfl | rfl | rfl := h.start_cases
  · rw [segments_ofParts_nil h]
    exact hwritten
  · rw [segments_ofParts_root h]
    exact hwritten
  · rw [segments_ofParts_dot h]
    exact hlast

end IsParts

/-! ### The folder above -/

/-- The pieces of a path: its start, as far as that is a piece, what stands above the last step,
the last step, and idle ones. -/
private theorem exists_segments_of_reversedBody {last : List Char} {above : List (List Char)}
    (h : p.reversedBody = last :: above) : ∃ behind, (∀ piece ∈ behind, isIdle piece = true) ∧
      p.segments = p.segments.take p.start.length ++ (above.reverse ++ last :: behind) := by
  have hsplit := List.takeWhile_append_dropWhile (p := isIdle)
    (l := (p.segments.drop p.start.length).reverse)
  change _ ++ p.reversedBody = _ at hsplit
  rw [h] at hsplit
  refine ⟨((p.segments.drop p.start.length).reverse.takeWhile isIdle).reverse, ?_, ?_⟩
  · intro piece hpiece
    exact List.all_eq_true.mp List.all_takeWhile piece (List.mem_reverse.mp hpiece)
  · have hbody := congrArg List.reverse hsplit
    rw [List.reverse_reverse, List.reverse_append, List.reverse_cons, List.append_assoc,
      List.singleton_append] at hbody
    rw [hbody, List.take_append_drop]

/-- The start of a path has the steps that its first piece has. -/
private theorem names_take_start (p : Path) :
    names (p.segments.take p.start.length) = if p.start = [['.']] then ["."] else [] := by
  rw [start]
  by_cases habsolute : p.isAbsolute = true
  · obtain ⟨rest, hrest⟩ := List.head?_eq_some_iff.mp (head?_segments_of_isAbsolute habsolute)
    rw [if_pos habsolute, hrest]
    rfl
  · rw [if_neg habsolute]
    by_cases hdot : p.segments.head? = some ['.']
    · obtain ⟨rest, hrest⟩ := List.head?_eq_some_iff.mp hdot
      rw [if_pos hdot, hrest]
      rfl
    · rw [if_neg hdot]
      rfl

theorem isAbsolute_iff_start : p.isAbsolute = (p.start == [['/']]) := by
  rw [start]
  cases p.isAbsolute with
  | true => rfl
  | false =>
    rw [if_neg Bool.false_ne_true]
    split <;> rfl

/-- A path with an empty piece in front starts at the root, or is empty. -/
private theorem isAbsolute_of_head?_segments (h : p.segments.head? = some []) (hp : p.text ≠ "") :
    p.isAbsolute = true := by
  have htext : ['/'].intercalate p.segments = p.text.toList := List.intercalate_splitOn '/'
  obtain ⟨rest, hrest⟩ := List.head?_eq_some_iff.mp h
  rw [hrest] at htext
  cases rest with
  | nil =>
    rw [List.intercalate_singleton] at htext
    exact absurd (String.toList_eq_nil_iff.mp htext.symm) hp
  | cons piece rest =>
    rw [List.intercalate_cons_cons] at htext
    rw [isAbsolute, ← htext]
    rfl

/-- What stands above the last step of a path are the parts of a path. -/
theorem isParts_above {last : List Char} {above : List (List Char)}
    (h : p.reversedBody = last :: above) :
    IsParts p.start (above.dropWhile isIdle).reverse := by
  obtain ⟨behind, -, hsegments⟩ := exists_segments_of_reversedBody h
  have habove : above.takeWhile isIdle ++ above.dropWhile isIdle = above :=
    List.takeWhile_append_dropWhile
  refine ⟨?_, fun piece hpiece => ?_, fun hstart piece hpiece => ?_, fun piece hpiece => ?_⟩
  · rw [start]
    split
    · exact .inr (.inl rfl)
    · split
      · exact .inr (.inr rfl)
      · exact .inl rfl
  · have hmem : piece ∈ above := by
      rw [← habove]
      exact List.mem_append_right _ (List.mem_reverse.mp hpiece)
    have hpiece : piece ∈ p.segments := by
      rw [hsegments]
      exact List.mem_append_right _ (List.mem_append_left _ (List.mem_reverse.mpr hmem))
    exact not_mem_of_mem_splitOn hpiece
  · -- the first piece below the start is the first of all
    have hhead : p.segments.head? = some piece := by
      obtain ⟨rest, hrest⟩ := List.head?_eq_some_iff.mp hpiece
      rw [hsegments, hstart, ← habove, List.reverse_append, hrest]
      rfl
    refine Bool.eq_false_iff.mpr fun hidle => ?_
    obtain rfl | rfl := isIdle_iff.mp hidle
    · have hp : p.text ≠ "" := by
        intro hp
        simp [reversedBody, segments, hp, hstart, isIdle] at h
      have habsolute := isAbsolute_of_head?_segments hhead hp
      rw [isAbsolute_iff_start, hstart] at habsolute
      cases habsolute
    · rw [start] at hstart
      split at hstart
      · cases hstart
      · simp at hstart
  · rw [List.getLast?_reverse] at hpiece
    have hnot := List.head?_dropWhile_not isIdle above
    rw [hpiece] at hnot
    simpa using hnot

theorem parent?_of_reversedBody {last : List Char} {above : List (List Char)}
    (h : p.reversedBody = last :: above) :
    p.parent? = some (ofParts p.start (above.dropWhile isIdle).reverse) := by
  rw [parent?, h]

/-- Nothing is below the start of a path that has no last step; above a dot stands the path without
text. -/
theorem parent?_of_reversedBody_eq_nil (h : p.reversedBody = []) :
    p.parent? = if p.start = [['.']] then some ⟨""⟩ else none := by
  rw [parent?, h]

/-- The names above a step, those idle ones next to it, the step, and what is behind. -/
private theorem names_above {last : List Char} (hlast : isIdle last = false)
    (above behind : List (List Char)) :
    names (above.reverse ++ last :: behind) = names (above.dropWhile isIdle).reverse ++
      (names (above.takeWhile isIdle).reverse ++ String.ofList last :: names behind) := by
  have habove : above.reverse =
      (above.dropWhile isIdle).reverse ++ (above.takeWhile isIdle).reverse := by
    rw [← List.reverse_append, List.takeWhile_append_dropWhile]
  have hne : (last != []) = true := by
    rw [bne_iff_ne]
    rintro rfl
    exact absurd hlast (by decide)
  have hstep : names (last :: behind) = String.ofList last :: names behind := by
    rw [names, List.filter_cons, if_pos hne]
    rfl
  rw [habove, names_append, names_append, hstep, List.append_assoc]

/-- A step that is not passed over is no idle one. -/
theorem isIdle_of_reversedBody {last : List Char} {above : List (List Char)}
    (h : p.reversedBody = last :: above) : isIdle last = false := by
  have hnot := List.head?_dropWhile_not isIdle (p.segments.drop p.start.length).reverse
  rw [reversedBody] at h
  rw [h] at hnot
  exact hnot

/-- Without a last step, there are idle pieces only. -/
theorem isIdle_of_reversedBody_eq_nil (h : p.reversedBody = []) :
    ∀ piece ∈ p.segments.drop p.start.length, isIdle piece = true := by
  rw [reversedBody, List.dropWhile_eq_nil_iff] at h
  exact fun piece hpiece => h piece (List.mem_reverse.mpr hpiece)

/-- A folder above has the steps of the path up to the last one, which may have idle steps on both
sides. -/
theorem steps_of_parent? (h : p.parent? = some q) :
    q.isAbsolute = p.isAbsolute ∧ ∃ before name behind,
      p.steps = q.steps ++ (before ++ name :: behind) ∧ (∀ x ∈ before, x = ".") ∧
        ∀ x ∈ behind, x = "." := by
  cases hbody : p.reversedBody with
  | nil =>
    rw [parent?_of_reversedBody_eq_nil hbody] at h
    split at h
    · rename_i hstart
      obtain rfl := Option.some.inj h
      have hidle := isIdle_of_reversedBody_eq_nil hbody
      refine ⟨?_, [], ".", names (p.segments.drop p.start.length), ?_, List.forall_mem_nil _,
        fun x hx => eq_dot_of_mem_names hidle hx⟩
      · rw [isAbsolute_iff_start (p := p), hstart]
        rfl
      · have htake := p.names_take_start
        rw [if_pos hstart] at htake
        rw [steps_eq_names, ← List.take_append_drop p.start.length p.segments, names_append,
          htake, List.take_append_drop]
        rfl
    · cases h
  | cons last above =>
    obtain ⟨behind, hbehind, hsegments⟩ := exists_segments_of_reversedBody hbody
    have hparts := isParts_above hbody
    rw [parent?_of_reversedBody hbody] at h
    obtain rfl := Option.some.inj h
    refine ⟨?_, names (above.takeWhile isIdle).reverse, String.ofList last, names behind, ?_,
      fun x hx => eq_dot_of_mem_names (fun piece hpiece => ?_) hx,
      fun x hx => eq_dot_of_mem_names hbehind hx⟩
    · rw [hparts.isAbsolute_ofParts, isAbsolute_iff_start (p := p)]
    · rw [steps_eq_names, hsegments, names_append, names_take_start,
        names_above (isIdle_of_reversedBody hbody), hparts.steps_ofParts, List.append_assoc]
    · exact List.all_eq_true.mp List.all_takeWhile piece (List.mem_reverse.mp hpiece)

/-- A path without a folder above it has idle steps only. -/
theorem eq_dot_of_parent?_eq_none (h : p.parent? = none) {x : String} (hx : x ∈ p.steps) :
    x = "." := by
  cases hbody : p.reversedBody with
  | nil =>
    rw [parent?_of_reversedBody_eq_nil hbody] at h
    split at h
    · cases h
    · rename_i hstart
      have hsteps : p.steps = names (p.segments.drop p.start.length) := by
        have htake := p.names_take_start
        rw [if_neg hstart] at htake
        rw [steps_eq_names, ← List.take_append_drop p.start.length p.segments, names_append, htake,
          List.take_append_drop, List.nil_append]
      rw [hsteps] at hx
      exact eq_dot_of_mem_names (isIdle_of_reversedBody_eq_nil hbody) hx
  | cons last above =>
    rw [parent?_of_reversedBody hbody] at h
    cases h

/-- Between empty pieces there are slashes only. -/
private theorem eq_slash_of_mem_intercalate {pieces : List (List Char)}
    (h : ∀ piece ∈ pieces, piece = []) {x : Char}
    (hx : x ∈ ['/'].intercalate pieces) : x = '/' := by
  induction pieces with
  | nil => simp at hx
  | cons piece more ih =>
    obtain rfl := h piece List.mem_cons_self
    cases more with
    | nil => simp at hx
    | cons next more =>
      rw [List.intercalate_cons_cons, List.nil_append, List.singleton_append, List.mem_cons] at hx
      obtain rfl | hx := hx
      · rfl
      · exact ih (fun piece hpiece => h piece (List.mem_cons_of_mem _ hpiece)) hx

/-- A path with text but without steps is made of slashes. -/
theorem endsInSlash_of_steps_eq_nil (h : p.steps = []) (hp : p.text ≠ "") :
    p.endsInSlash = true := by
  have hempty : ∀ piece ∈ p.segments, piece = [] := by
    rw [steps_eq_names, names, List.map_eq_nil_iff, List.filter_eq_nil_iff] at h
    simpa using h
  have htext : ['/'].intercalate p.segments = p.text.toList := List.intercalate_splitOn '/'
  have hne : p.text.toList ≠ [] := mt String.toList_eq_nil_iff.mp hp
  have hlast : p.text.toList.getLast hne ∈ ['/'].intercalate p.segments := by
    rw [htext]
    exact List.getLast_mem hne
  rw [endsInSlash, beq_iff_eq, List.getLast?_eq_some_getLast hne]
  exact congrArg some (eq_slash_of_mem_intercalate hempty hlast)

/-- A folder above is put together from its parts. -/
theorem isTidy_of_parent? (h : p.parent? = some q) : q.IsTidy := by
  cases hbody : p.reversedBody with
  | nil =>
    rw [parent?_of_reversedBody_eq_nil hbody] at h
    split at h
    · exact ⟨[], [], ⟨.inl rfl, List.forall_mem_nil _, nofun, nofun⟩, (Option.some.inj h).symm⟩
    · cases h
  | cons last above =>
    rw [parent?_of_reversedBody hbody] at h
    exact ⟨_, _, isParts_above hbody, (Option.some.inj h).symm⟩

/-- A tidy path has one step more than the folder above it, beside idle ones before that. -/
theorem steps_of_parent?_of_isTidy (hp : p.IsTidy) (h : p.parent? = some q) :
    ∃ before name, p.steps = q.steps ++ (before ++ [name]) ∧ ∀ x ∈ before, x = "." := by
  obtain ⟨start, below, hparts, rfl⟩ := hp
  have hsteps := hparts.steps_ofParts
  have hbody := hparts.reversedBody_ofParts
  cases hrev : below.reverse with
  | nil =>
    rw [hrev] at hbody
    rw [parent?_of_reversedBody_eq_nil hbody, hparts.start_ofParts] at h
    split at h
    · rename_i hstart
      obtain rfl := Option.some.inj h
      obtain rfl := List.reverse_eq_nil_iff.mp hrev
      rw [if_pos hstart] at hsteps
      exact ⟨[], ".", hsteps, List.forall_mem_nil _⟩
    · cases h
  | cons last above =>
    rw [hrev] at hbody
    have hupper := isParts_above hbody
    have hbelow : below = above.reverse ++ [last] := by
      rw [← List.reverse_reverse below, hrev, List.reverse_cons]
    rw [parent?_of_reversedBody hbody] at h
    obtain rfl := Option.some.inj h
    rw [hparts.start_ofParts] at hupper ⊢
    refine ⟨names (above.takeWhile isIdle).reverse, String.ofList last, ?_,
      fun x hx => eq_dot_of_mem_names (fun piece hpiece => ?_) hx⟩
    · rw [hsteps, hbelow, names_above (isIdle_of_reversedBody hbody), hupper.steps_ofParts,
        List.append_assoc]
      rfl
    · exact List.all_eq_true.mp List.all_takeWhile piece (List.mem_reverse.mp hpiece)

/-- A tidy path without a folder above it has no steps. -/
theorem steps_eq_nil_of_parent?_eq_none (hp : p.IsTidy) (h : p.parent? = none) : p.steps = [] := by
  obtain ⟨start, below, hparts, rfl⟩ := hp
  have hsteps := hparts.steps_ofParts
  have hbody := hparts.reversedBody_ofParts
  cases hrev : below.reverse with
  | nil =>
    rw [hrev] at hbody
    rw [parent?_of_reversedBody_eq_nil hbody, hparts.start_ofParts] at h
    split at h
    · cases h
    · rename_i hstart
      rw [hsteps, if_neg hstart, List.reverse_eq_nil_iff.mp hrev]
      rfl
  | cons last above =>
    rw [hrev] at hbody
    rw [parent?_of_reversedBody hbody] at h
    cases h

end BlobCache.Path
