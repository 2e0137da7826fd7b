import BlobCache.Toml.Table
import BlobCache.Toml.Text
import BlobCache.Toml.Word

/-!
# The statements of a TOML document

A document is a list of statements: entries `key = value`, headers `[key]` of tables and headers
`[[key]]` of tables in arrays. Keys may be dotted. Between statements stand line breaks, blanks
and comments. Keys have fewer than 80 parts, and arrays and inline tables are nested less than 80
deep.
-/

namespace BlobCache.Toml

/-- A reader takes what it reads off the front of the input; it may find nothing to read. -/
abbrev Reader (α : Type) : Type :=
  StateT (List Char) Option α

namespace Reader

/-- The next character, which stays in the input. -/
def next? : Reader (Option Char) := fun s => some (s.head?, s)

/-- Takes one character, which has to be `c`. -/
def expect (c : Char) : Reader Unit
  | d :: s => if d = c then some ((), s) else none
  | [] => none

/-- Passes over blanks. -/
def skipBlanks : Reader Unit := fun s => some ((), s.dropWhile isBlank)

/-! ### Line ends -/

/-- The input behind a comment, if it starts with one. -/
def dropComment : List Char → List Char
  | '#' :: s => s.dropWhile isPlain
  | s => s

/-- Takes the rest of a line on which nothing but a comment may stand. -/
def lineEnd : Reader Unit := fun s =>
  match dropComment (s.dropWhile isBlank) with
  | [] => some ((), [])
  | '\n' :: s => some ((), s)
  | '\r' :: '\n' :: s => some ((), s)
  | _ => none

/-- The input without the blanks, line breaks and comments at its front. -/
def dropSpace (inComment : Bool) : List Char → List Char
  | [] => []
  | c :: s =>
    if c = '\n' then dropSpace false s
    else if c = '\r' ∧ s.head? = some '\n' then dropSpace inComment s
    else if inComment then
      if isPlain c then dropSpace true s else c :: s
    else if isBlank c then dropSpace false s
    else if c = '#' then dropSpace true s
    else c :: s

/-- Passes over blanks, line breaks and comments. -/
def skipSpace : Reader Unit := fun s => some ((), dropSpace false s)

/-! ### Keys -/

/-- Whether a character may stand in a key without quotes. -/
def isKeyChar (c : Char) : Bool :=
  c.isAlphanum || c == '-' || c == '_'

/-- Reads one part of a key. -/
def keyPart : Reader String
  | '"' :: s => (basicText s).map fun (key, s) => (String.ofList key, s)
  | '\'' :: s => (literalText s).map fun (key, s) => (String.ofList key, s)
  | s =>
    let key := s.takeWhile isKeyChar
    if key = [] then none else some (String.ofList key, s.dropWhile isKeyChar)

/-- Reads a key of at most `limit` parts. -/
def keyUpTo : Nat → Reader (List String)
  | 0 => failure
  | limit + 1 => do
    skipBlanks
    let part ← keyPart
    skipBlanks
    if (← next?) = some '.' then
      expect '.'
      return part :: (← keyUpTo limit)
    else
      return [part]

/-- Reads a key. -/
def key : Reader (List String) :=
  keyUpTo 79

/-! ### Values -/

/-- Reads a text behind its first quote. -/
def text (quote : Char) : Reader Value := do
  expect quote
  fun s => (textBehind quote s).map fun (text, s) => (.string (String.ofList text), s)

/-- Reads a word. A date and a time of the day may be two words with one space between them. -/
def word : Reader Value := fun s =>
  let first := s.takeWhile isWordChar
  let rest := s.dropWhile isWordChar
  match afterDate? first, rest with
  | some [], ' ' :: more =>
    if more.head?.any Char.isDigit then
      if isZonedTime (more.takeWhile isWordChar) then
        some (.datetime, more.dropWhile isWordChar)
      else none
    else some (.datetime, rest)
  | _, _ => (wordValue? first).map fun v => (v, rest)

/-- Reads a value that holds no other values. -/
def scalar : Reader Value := do
  match ← next? with
  | some '"' => text '"'
  | some '\'' => text '\''
  | _ => word

/-- Reads the elements of an array, up to the closing bracket. -/
def elements (element : Reader Value) : Nat → Reader (List Value)
  | 0 => failure
  | fuel + 1 => do
    skipSpace
    if (← next?) = some ']' then
      expect ']'
      return []
    else
      let value ← element
      skipSpace
      if (← next?) = some ',' then
        expect ','
        return value :: (← elements element fuel)
      else
        expect ']'
        return [value]

/-- Reads a key with its value. -/
def entry (value : Reader Value) : Reader (List String × Value) := do
  let path ← key
  expect '='
  skipBlanks
  return (path, ← value)

/-- Reads the entries of an inline table, up to the closing brace. -/
def inlineEntries (value : Reader Value) : Nat → Reader (List (List String × Value))
  | 0 => failure
  | fuel + 1 => do
    let first ← entry value
    skipBlanks
    if (← next?) = some ',' then
      expect ','
      return first :: (← inlineEntries value fuel)
    else
      expect '\x7d'
      return [first]

/-- Reads an array. -/
def array (element : Reader Value) : Reader Value := do
  expect '['
  return .array (← elements element ((← get).length + 1))

/-- Reads an inline table. -/
def inlineTable (value : Reader Value) : Reader Value := do
  expect '\x7b'
  skipBlanks
  if (← next?) = some '\x7d' then
    expect '\x7d'
    return .table { inline := true } []
  else
    let entries ← inlineEntries value ((← get).length + 1)
    match Table.ofInline? entries with
    | some entries => return .table { inline := true } entries
    | none => failure

/-- Reads a value in which collections are nested at most `depth` deep. -/
def valueUpTo : Nat → Reader Value
  | 0 => scalar
  | depth + 1 => do
    match ← next? with
    | some '[' => array (valueUpTo depth)
    | some '\x7b' => inlineTable (valueUpTo depth)
    | _ => scalar

/-- Reads a value. -/
def value : Reader Value :=
  valueUpTo 79

/-! ### Statements -/

/-- Reads a statement, without the end of its line. -/
def statement : Reader Statement := fun s =>
  match s with
  | '[' :: '[' :: s => (do
      let path ← key
      expect ']'
      expect ']'
      return .arrayHeader path : Reader Statement) s
  | '[' :: s => (do
      let path ← key
      expect ']'
      return .header path : Reader Statement) s
  | s => (do
      let (path, v) ← entry value
      return .entry path v : Reader Statement) s

/-- Reads the statements in all of the input. -/
def statements : Nat → List Char → Option (List Statement)
  | 0, _ => none
  | fuel + 1, s =>
    match s.dropWhile isBlank with
    | [] => some []
    | c :: s =>
      if c = '#' ∨ c = '\n' ∨ c = '\r' then do
        let (_, s) ← lineEnd (c :: s)
        statements fuel s
      else do
        let (first, s) ← statement (c :: s)
        let (_, s) ← lineEnd s
        return first :: (← statements fuel s)

end Reader

/-- The input without a byte order mark. -/
def dropByteOrderMark : List Char → List Char
  | '\ufeff' :: s => s
  | s => s

/-- The entries of a document. -/
def document? (s : List Char) : Option Entries :=
  let s := dropByteOrderMark s
  (Reader.statements (s.length + 1) s).bind Table.ofStatements?

end BlobCache.Toml
