import BlobCache.Cache.Reference
import BlobCache.Report.ByteSize
import BlobCache.Report.Status
import BlobCache.Text.JsonString

/-!
# Listings

A listing has a `Row` for every entry that its identifier leads to, in the order of the
identifiers (`Cache.rows`). A body that cannot be had leaves the size of its row open and does not
disturb the other rows. A listing is shown as a table, as a JSON document or as bare names.
-/

namespace BlobCache

/-- An object in a listing. -/
structure Row where
  /-- The name of the object. -/
  filename : String
  /-- Its labels as lookups find them, by ascending key. -/
  labels : List (String × String)
  /-- All its labels on one line. -/
  labelText : String
  /-- The number of bytes in its body, if the body can be had. -/
  size : Option Nat
  deriving DecidableEq, Repr

namespace Cache

variable {β : Type} [Backend β]

/-- The size of the body of an entry, if it can be had. -/
def sizeOf? (id : EntryId) (filename : String) : Action (Cache β) (Option Nat) := do
  match ← (body id).attempt with
  | .ok data => return some data.length
  | .error e =>
    Action.log .warn s!"Cannot map {filename}: {e.message}"
    return none

/-- The rows of the entries that identifiers lead to. -/
def rows : List EntryId → Action (Cache β) (List Row)
  | [] => return []
  | id :: ids => do
    match (← Action.get).get? id with
    | none => rows ids
    | some e =>
      let size ← sizeOf? id e.filename
      let others ← rows ids
      return ⟨e.filename, e.labels.visible, e.labels.text, size⟩ :: others

end Cache

namespace Listing

/-! ### Tables -/

/-- A table cell, filled up with spaces. -/
def cell (width : Nat) (s : String) : String :=
  String.ofList (s.toList.rightpad width ' ')

/-- A line of a table. -/
def tableLine (filename size labels : String) : String :=
  s!"{cell 10 filename} {cell 12 size} {cell 50 labels}\n"

/-- The line of a row. -/
def rowLine (r : Row) : String :=
  tableLine r.filename ((r.size.map ByteSize.text).getD "unreadable") r.labelText

/-- A listing as a table. -/
def table (rows : List Row) : String :=
  Status.heading "Objects" ++ tableLine "FILE" "SIZE" "LABELS" ++
    String.ofList (List.replicate 72 '-') ++ "\n" ++ String.join (rows.map rowLine) ++
    s!"\n{rows.length} object(s)\n"

/-! ### JSON documents -/

/-- A JSON array or object over several lines: its parts between brackets, indented. -/
def block (opening closing : Char) (indent : Nat) (parts : List String) : String :=
  let margin := String.ofList ('\n' :: List.replicate indent ' ')
  if parts.isEmpty then String.ofList [opening, closing]
  else
    opening.toString ++ ",".intercalate (parts.map fun part => margin ++ "  " ++ part) ++ margin ++
      closing.toString

/-- A member of a JSON object. -/
def jsonMember (name value : String) : String :=
  JsonString.quoted name ++ ": " ++ value

/-- The JSON object of a row. -/
def jsonRow (r : Row) : String :=
  let labels := r.labels.map fun (key, value) => jsonMember key (JsonString.quoted value)
  block '\x7b' '\x7d' 2
    [jsonMember "filename" (JsonString.quoted r.filename),
      jsonMember "labels" (block '\x7b' '\x7d' 4 labels),
      jsonMember "size" ((r.size.map toString).getD "null")]

/-- A listing as a JSON document. -/
def json (rows : List Row) : String :=
  block '[' ']' 0 (rows.map jsonRow) ++ "\n"

/-! ### Names -/

/-- A listing as bare names. -/
def plain (rows : List Row) : String :=
  String.join (rows.map fun r => r.filename ++ "\n")

end Listing

end BlobCache
