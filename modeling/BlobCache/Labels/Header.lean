import BlobCache.Labels.Basic
import BlobCache.Text.Quoted
import BlobCache.Text.Utf8

/-!
# The label header of a stored object

Labels are stored in front of an object's body: one line `key value` for each label, and a zero
byte after the last line. `Labels.header` writes this form and refuses labels that would not read
back: a key must not be empty or hold white space or NUL, and a value must not hold a line break
or NUL. `Labels.ofHeader` reads the lines again. It is more liberal than the writer: any UTF-8
text is a header, empty lines are skipped, and a line without a space is a key with an empty
value.
-/

namespace BlobCache

/-- Why labels cannot be written as a header. -/
inductive HeaderError
  /-- A key is the empty text. -/
  | emptyKey
  /-- The key holds white space or NUL. -/
  | badKey (key : String)
  /-- The value under the key holds a line break or NUL. -/
  | badValue (key : String)
  deriving DecidableEq, Repr

/-- The wording of a refusal. -/
def HeaderError.message : HeaderError → String
  | emptyKey => "label key is empty"
  | badKey key => "label key " ++ Quoted.quote key ++ " contains whitespace or NUL"
  | badValue key => "value for label " ++ Quoted.quote key ++ " contains a line break or NUL"

namespace Labels

/-! ### Writing -/

/-- Whether a character may not stand in a key. -/
def breaksKey (c : Char) : Bool :=
  isWhiteSpace c || c == '\x00'

/-- Whether a character may not stand in a value. -/
def breaksValue (c : Char) : Bool :=
  c == '\n' || c == '\r' || c == '\x00'

/-- Accepts a label that a header line can hold. -/
def checkLabel (label : String × String) : Except HeaderError Unit :=
  if label.1 = "" then .error .emptyKey
  else if label.1.toList.any breaksKey then .error (.badKey label.1)
  else if label.2.toList.any breaksValue then .error (.badValue label.1)
  else .ok ()

/-- The header line of a label. -/
def headerLine (label : String × String) : List Char :=
  label.1.toList ++ ' ' :: label.2.toList ++ ['\n']

/-- The header of labels, with the zero byte that ends it. The first label that does not fit
decides the error. -/
def header (ls : Labels) : Except HeaderError Bytes := do
  ls.toList.forM checkLabel
  return Utf8.encode (ls.toList.flatMap headerLine) ++ [0]

/-! ### Reading -/

/-- Puts a character in front of the first line. -/
def extendFirst (c : Char) : List (List Char) → List (List Char)
  | [] => [[c]]
  | line :: lines => (c :: line) :: lines

/-- The lines of a text. A line ends at a line feed, and one carriage return directly before it
belongs to the ending; the last line need not be ended. -/
def lines : List Char → List (List Char)
  | [] => []
  | '\r' :: '\n' :: s => [] :: lines s
  | c :: s => if c = '\n' then [] :: lines s else extendFirst c (lines s)

/-- The label on a line: the key reaches to the first space, or to the end of the line. -/
def ofLine (line : List Char) : String × String :=
  (String.ofList (line.takeWhile (· != ' ')), String.ofList (line.dropWhile (· != ' ')).tail)

/-- The labels of a header's text. -/
def ofText (s : List Char) : Labels :=
  ⟨((lines s).filter (· != [])).map ofLine⟩

/-- The labels of a header, given without the zero byte that ends it. -/
def ofHeader (bytes : Bytes) : Except Utf8.Fault Labels :=
  (Utf8.decode bytes).map ofText

/-- The wording of the refusal of a header. -/
def unreadableHeader (fault : Utf8.Fault) : String :=
  "label header is not UTF-8: " ++ fault.message

end Labels

end BlobCache
