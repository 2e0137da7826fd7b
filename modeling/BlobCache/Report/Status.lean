/-!
# Status lines

Short messages for people: a line with a tag, a heading, and a named value below a heading.
-/

namespace BlobCache

/-- The kind of a status line. -/
inductive Status
  | ok
  | warn
  | info
  deriving DecidableEq, Repr

namespace Status

/-- The tag of a kind. -/
def tag : Status → String
  | ok => "OK"
  | warn => "WARN"
  | info => "INFO"

/-- A status line. -/
def line (s : Status) (message : String) : String :=
  s!"  [{s.tag}] {message}\n"

/-- A heading, with the empty line below it. -/
def heading (title : String) : String :=
  title ++ "\n\n"

/-- A named value. -/
def item (name value : String) : String :=
  s!"  {name}: {value}\n"

end Status

end BlobCache
