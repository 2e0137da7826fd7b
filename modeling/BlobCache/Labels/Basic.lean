/-!
# Labels

A label is a key with a value, and an object carries an ordered list of labels. Keys need not be
distinct: a lookup gives the first value under its key (`value?_cons`), and later ones are kept
but shadowed.
-/

namespace BlobCache

/-- The ordered labels of an object. -/
structure Labels where
  /-- The labels in order, each a key with its value. -/
  toList : List (String × String)
  deriving DecidableEq, Repr, Inhabited

namespace Labels

/-- No labels. -/
def empty : Labels := ⟨[]⟩

/-- The first value under `key`. -/
def value? (ls : Labels) (key : String) : Option String :=
  ls.toList.lookup key

/-- Whether `value` is what a lookup of `key` gives. -/
def hasLabel (ls : Labels) (key value : String) : Bool :=
  ls.value? key == some value

/-- Number of labels, shadowed ones included. -/
def size (ls : Labels) : Nat :=
  ls.toList.length

/-- Whether there is no label. -/
def isEmpty (ls : Labels) : Bool :=
  ls.toList.isEmpty

/-- Puts a label at its place among labels by ascending key, unless there is one with the key. -/
def insertIfAbsent (key value : String) : List (String × String) → List (String × String)
  | [] => [(key, value)]
  | (k, v) :: ls =>
    if key < k then (key, value) :: (k, v) :: ls
    else if key = k then (k, v) :: ls
    else (k, v) :: insertIfAbsent key value ls

/-- The labels that lookups find, by ascending key. They are put in one after the other, and the
first one of a key stays. -/
def visible (ls : Labels) : List (String × String) :=
  ls.toList.foldl (fun shown (key, value) => insertIfAbsent key value shown) []

/-- The labels on one line: `key=value`, separated by commas. -/
def text (ls : Labels) : String :=
  ",".intercalate (ls.toList.map fun (k, v) => k ++ "=" ++ v)

@[simp]
theorem value?_empty (key : String) : empty.value? key = none := rfl

/-- A lookup stops at the first label with its key. -/
theorem value?_cons (k v : String) (ls : List (String × String)) (key : String) :
    value? ⟨(k, v) :: ls⟩ key = if key = k then some v else value? ⟨ls⟩ key := by
  by_cases h : key = k
  · simp [value?, h]
  · simp [value?, List.lookup_cons, beq_eq_false_iff_ne.mpr h, h]

theorem hasLabel_iff {ls : Labels} {key value : String} :
    ls.hasLabel key value ↔ ls.value? key = some value := by
  simp [hasLabel]

end Labels

end BlobCache
