/-!
# TOML values

The values that a TOML document can hold. Of floating-point numbers and of dates only the fact is
kept, since no configuration has use for them. A table remembers how it came about, because that
decides whether the document may add to it later.
-/

namespace BlobCache.Toml

/-- How a table came about. -/
structure TableKind where
  /-- It was made on the way to another table, and has no header of its own. -/
  implicit : Bool := false
  /-- It was made by a dotted key. -/
  dotted : Bool := false
  /-- It was written between braces. -/
  inline : Bool := false
  deriving DecidableEq, Repr

/-- A value of a document. -/
inductive Value
  | string (text : String)
  | integer (n : Int)
  | float
  | boolean (b : Bool)
  | datetime
  | array (elements : List Value)
  | table (kind : TableKind) (entries : List (String × Value))
  /-- An array of tables, of which each has a header. -/
  | tables (elements : List (List (String × Value)))

/-- The entries of a table, in order. -/
abbrev Entries := List (String × Value)

/-- Entries with the value under a key replaced. -/
def Entries.replace (entries : Entries) (key : String) (value : Value) : Entries :=
  entries.map fun e => if e.1 = key then (key, value) else e

end BlobCache.Toml
