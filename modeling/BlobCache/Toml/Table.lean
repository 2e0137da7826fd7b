import BlobCache.Toml.Value

/-!
# The tables of a TOML document

The statements of a document fill a tree of tables. Everything may be said only once: a key has one
value, a table one header. A dotted key may not add to a table that has a header or braces of its
own, and a header may not reopen what dotted keys have made; it may give a header to a table that
so far only lay on the way to another one.
-/

namespace BlobCache.Toml

/-- A statement of a document. Keys have at least one part. -/
inductive Statement
  /-- An entry of the table whose header came last. -/
  | entry (path : List String) (value : Value)
  /-- The header of a table. -/
  | header (path : List String)
  /-- The header of a further table in an array. -/
  | arrayHeader (path : List String)

/-- A table under construction. -/
structure Table where
  /-- How it came about. -/
  kind : TableKind := {}
  /-- What it holds so far. -/
  entries : Entries := []

namespace Table

/-- Changes the table at the end of a path, making the tables on the way that are missing. The
steps of a dotted key pass only through tables without a header of their own; a path between braces
stays between them; a path through an array goes to its last table. -/
def descend (dotted inline : Bool) (finish : Table → Option Table) :
    List String → Table → Option Table
  | [], t => finish t
  | key :: keys, t =>
    match t.entries.lookup key with
    | none => do
      let made ← descend dotted inline finish keys { kind := { implicit := true, dotted, inline } }
      return { t with entries := t.entries ++ [(key, .table made.kind made.entries)] }
    | some (.table kind entries) =>
      if kind.inline != inline || (dotted && !kind.implicit) then none
      else do
        let changed ← descend dotted inline finish keys { kind, entries }
        return { t with entries := t.entries.replace key (.table changed.kind changed.entries) }
    | some (.tables elements) => do
      let last ← elements.getLast?
      let changed ← descend dotted inline finish keys { entries := last }
      let elements := elements.dropLast ++ [changed.entries]
      return { t with entries := t.entries.replace key (.tables elements) }
    | some _ => none

/-- Adds an entry at the end of a dotted path. The last table on the way has to come from the
path, if the path has any step but the last. -/
def addEntry (inline : Bool) (path : List String) (value : Value) (t : Table) : Option Table := do
  let key ← path.getLast?
  let way := path.dropLast
  descend true inline (fun t =>
    if t.kind.dotted == way.isEmpty || (t.entries.lookup key).isSome then none
    else some { t with entries := t.entries ++ [(key, value)] }) way t

/-- Gives a header to the table at a path. -/
def addHeader (path : List String) (t : Table) : Option Table := do
  let key ← path.getLast?
  descend false false (fun t =>
    match t.entries.lookup key with
    | none => some { t with entries := t.entries ++ [(key, .table {} [])] }
    | some (.table kind entries) =>
      if kind.implicit && !kind.dotted && !kind.inline then
        some { t with entries := t.entries.replace key (.table {} entries) }
      else none
    | some _ => none) path.dropLast t

/-- Adds a table to the array of tables at a path. -/
def addArrayHeader (path : List String) (t : Table) : Option Table := do
  let key ← path.getLast?
  descend false false (fun t =>
    match t.entries.lookup key with
    | none => some { t with entries := t.entries ++ [(key, .tables [[]])] }
    | some (.tables elements) =>
      some { t with entries := t.entries.replace key (.tables (elements ++ [[]])) }
    | some _ => none) path.dropLast t

/-- The entries of an inline table. -/
def ofInline? (entries : List (List String × Value)) : Option Entries :=
  let start : Table := { kind := { inline := true } }
  (entries.foldlM (fun (t : Table) (path, value) => t.addEntry true path value) start).map
    Table.entries

/-- A document up to some statement: its tables, and the path of the last header. -/
structure Progress where
  /-- The outermost table. -/
  root : Table := {}
  /-- The path of the table that entries go to. -/
  current : List String := []

/-- Takes one more statement into account. -/
def Progress.step (p : Progress) : Statement → Option Progress
  | .entry path value => do
    let root ← descend false false (addEntry false path value) p.current p.root
    return { p with root }
  | .header path => do
    return { root := ← p.root.addHeader path, current := path }
  | .arrayHeader path => do
    return { root := ← p.root.addArrayHeader path, current := path }

/-- The entries of a document with these statements. -/
def ofStatements? (statements : List Statement) : Option Entries :=
  (statements.foldlM Progress.step ({} : Progress)).map fun p => p.root.entries

end Table

end BlobCache.Toml
