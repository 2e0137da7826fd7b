/-!
# Paths

A path is the text that a user or a configuration file gives for a file. Two paths that are
spelled differently may mean the same steps: repeated and trailing slashes and dots inside a path
are idle. `Path.components` leaves them out, and `Path.SameFile` compares paths by what is left.
`Path.join` puts a name below a path, and its components are those of the path followed by the
name (`components_join`).
-/

namespace BlobCache

/-- A path, as it is spelled. -/
structure Path where
  /-- The spelling. -/
  text : String
  deriving DecidableEq, Repr, Inhabited

namespace Path

/-- The pieces between the slashes, empty ones included. -/
def segments (p : Path) : List (List Char) :=
  p.text.toList.splitOn '/'

/-- Whether the path starts at the root. -/
def isAbsolute (p : Path) : Bool :=
  p.text.toList.head? == some '/'

/-- Whether a piece of a path leads nowhere: it is empty or a dot. -/
def isIdle (segment : List Char) : Bool :=
  segment == [] || segment == ['.']

/-- What the path starts with beside names: the root, or the dot that a relative path may spell
out. -/
def start (p : Path) : List (List Char) :=
  if p.isAbsolute then [['/']]
  else if p.segments.head? = some ['.'] then [['.']]
  else []

/-- The steps of the path, without idle pieces. -/
def components (p : Path) : List (List Char) :=
  p.start ++ p.segments.filter (!isIdle ·)

/-- Whether two spellings have the same steps. -/
def SameFile (p q : Path) : Prop :=
  p.components = q.components

instance (p q : Path) : Decidable (SameFile p q) :=
  inferInstanceAs (Decidable (_ = _))

/-- The names that lead to the file, dots included, as the disk follows them one by one. -/
def steps (p : Path) : List String :=
  (p.segments.filter (· != [])).map String.ofList

/-- Whether the spelling ends in a slash, so that only a folder can be meant. -/
def endsInSlash (p : Path) : Bool :=
  p.text.toList.getLast? == some '/'

/-- The path of `name` below `p`. -/
def join (p : Path) (name : String) : Path :=
  if p.text.toList = [] then ⟨name⟩
  else if p.text.toList.getLast? = some '/' then ⟨p.text ++ name⟩
  else ⟨p.text ++ "/" ++ name⟩

/-! ### Joining adds one step -/

theorem isIdle_nil : isIdle [] = true := rfl

/-- Spellings that split into the same pieces up to the last one start alike. -/
theorem start_eq_of_segments {p q : Path} {s : List (List Char)} {a b : List Char} (hs : s ≠ [])
    (hp : p.segments = s ++ [a]) (hq : q.segments = s ++ [b])
    (habs : p.isAbsolute = q.isAbsolute) : p.start = q.start := by
  obtain ⟨x, s, rfl⟩ := List.exists_cons_of_ne_nil hs
  simp [start, hp, hq, habs]

/-- Below a path stands its name: joining adds one step. -/
theorem components_join (p : Path) {name : String} (hslash : '/' ∉ name.toList)
    (hidle : isIdle name.toList = false) :
    (p.join name).components = p.components ++ [name.toList] := by
  have hname : name.toList.splitOn '/' = [name.toList] := List.splitOn_eq_singleton hslash
  have hhead : name.toList.head? ≠ some '/' := fun h =>
    hslash (List.mem_of_head? h)
  have hdot : name.toList ≠ ['.'] := fun h => by simp [isIdle, h] at hidle
  unfold join
  split
  · rename_i h
    have hp : p.segments = [[]] := by simp [segments, h]
    have hq : segments ⟨name⟩ = [name.toList] := hname
    simp [components, start, isAbsolute, hp, hq, h, hidle, hhead, hdot, isIdle_nil]
  · rename_i hnonempty
    split
    · rename_i hlast
      obtain ⟨s, hs⟩ := List.getLast?_eq_some_iff.1 hlast
      have hp : p.segments = s.splitOn '/' ++ [[]] := by
        simp [segments, hs, List.splitOn_append_cons_self]
      have hq : segments ⟨p.text ++ name⟩ = s.splitOn '/' ++ [name.toList] := by
        simp [segments, hs, List.splitOn_append_cons_self, hname]
      have habs : p.isAbsolute = isAbsolute ⟨p.text ++ name⟩ := by
        cases s <;> simp [isAbsolute, hs]
      have hstart := start_eq_of_segments (by simp) hp hq habs
      simp [components, hstart, hp, hq, hidle, isIdle_nil]
    · have hq : segments ⟨p.text ++ "/" ++ name⟩ = p.segments ++ [name.toList] := by
        simp [segments, List.splitOn_append_cons_self, hname]
      have habs : isAbsolute ⟨p.text ++ "/" ++ name⟩ = p.isAbsolute := by
        obtain ⟨c, t, ht⟩ := List.exists_cons_of_ne_nil hnonempty
        simp [isAbsolute, ht]
      have hsegs : p.segments ≠ [] := by simp [segments]
      obtain ⟨x, s, hs⟩ := List.exists_cons_of_ne_nil hsegs
      rw [components, components, start, start, habs, hq, hs, List.filter_append]
      simp [hidle]

/-! ### The folder above -/

/-- A path from its start and the pieces below it. -/
def ofParts (start below : List (List Char)) : Path :=
  let body := ['/'].intercalate below
  match start with
  | [] => ⟨String.ofList body⟩
  | ['/'] :: _ => ⟨String.ofList ('/' :: body)⟩
  | dot :: _ => ⟨String.ofList (if below = [] then dot else dot ++ '/' :: body)⟩

/-- The pieces below the start of the path, last one first, without idle pieces at the end. -/
def reversedBody (p : Path) : List (List Char) :=
  (p.segments.drop p.start.length).reverse.dropWhile isIdle

/-- The path without its last step; the root and the empty path have none. -/
def parent? (p : Path) : Option Path :=
  match p.reversedBody with
  | _ :: above => some (ofParts p.start (above.dropWhile isIdle).reverse)
  | [] => if p.start = [['.']] then some ⟨""⟩ else none

/-- The path and the folders above it, nearest first; at most `fuel` of them beside the path. -/
def ancestorsUpTo : Nat → Path → List Path
  | 0, p => [p]
  | fuel + 1, p =>
    match p.parent? with
    | none => [p]
    | some q => p :: ancestorsUpTo fuel q

/-- The path and all folders above it, nearest first. -/
def ancestors (p : Path) : List Path :=
  ancestorsUpTo p.segments.length p

end Path

end BlobCache
