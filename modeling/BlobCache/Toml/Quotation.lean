/-!
# Writing texts in TOML documents

Every text can be written as a basic text with escapes. `Quotation.choose` picks the plainest
notation for a text: none but `"` around it if that suffices, a literal text if quotes or
backslashes would have to be escaped, and several lines if the text has several.
-/

namespace BlobCache.Toml

/-- A way to write a text. -/
inductive Quotation
  /-- Between `"`. -/
  | basic
  /-- Between `'`, character by character. -/
  | literal
  /-- Between three `"`. -/
  | basicTriple
  /-- Between three `'`, character by character. -/
  | literalTriple
  deriving DecidableEq, Repr

/-- Length of the longest run of a character in a text, if a run of length `run` came before. -/
def longestRunFrom (c : Char) (run : Nat) : List Char → Nat
  | [] => run
  | d :: s => if d = c then longestRunFrom c (run + 1) s else max run (longestRunFrom c 0 s)

/-- Length of the longest run of a character in a text. -/
def longestRun (c : Char) (s : List Char) : Nat :=
  longestRunFrom c 0 s

/-- Whether a character is a control that only an escape can write. -/
def needsEscape (c : Char) : Bool :=
  (c.toNat < 0x20 && c != '\n') || c.toNat == 0x7F

namespace Quotation

/-- Whether a literal text can hold the characters. -/
def fitsLiteral (s : List Char) : Bool :=
  !s.any needsEscape && longestRun '\'' s ≤ 2

/-- The notation for a text. -/
def choose (s : List Char) : Quotation :=
  let hasQuote := s.contains '"'
  let hasBackslash := s.contains '\\'
  if s.contains '\n' then
    if (hasQuote || hasBackslash) && fitsLiteral s then literalTriple else basicTriple
  else if !hasQuote && !hasBackslash then basic
  else if s.any needsEscape then basic
  else if !s.contains '\'' then literal
  else if !hasBackslash && longestRun '"' s ≤ 2 then basicTriple
  else if fitsLiteral s then literalTriple
  else basic

/-- The hexadecimal digit of a number below sixteen. -/
def hexDigit (n : Nat) : Char :=
  Char.ofNat (if n < 10 then 0x30 + n else 0x41 + (n - 10))

/-- The escape of a character by its code point. -/
def codeEscape (c : Char) : List Char :=
  let n := c.toNat
  ['\\', 'u', hexDigit (n / 4096 % 16), hexDigit (n / 256 % 16), hexDigit (n / 16 % 16),
    hexDigit (n % 16)]

/-- How a character other than `"` is written in a basic text. -/
def escape (lines : Bool) (c : Char) : List Char :=
  if c = '\x08' then ['\\', 'b']
  else if c = '\t' then ['\\', 't']
  else if c = '\n' then if lines then ['\n'] else ['\\', 'n']
  else if c = '\x0c' then ['\\', 'f']
  else if c = '\r' then ['\\', 'r']
  else if c = '\\' then ['\\', '\\']
  else if needsEscape c then codeEscape c
  else [c]

/-- The characters of a basic text behind `run` quotes. Up to two quotes in a row stand for
themselves if the text may span lines. -/
def escapeFrom (lines : Bool) (run : Nat) : List Char → List Char
  | [] => []
  | c :: s =>
    if c = '"' then
      if run < (if lines then 2 else 0) then '"' :: escapeFrom lines (run + 1) s
      else '\\' :: '"' :: escapeFrom lines 0 s
    else escape lines c ++ escapeFrom lines 0 s

/-- The line break behind the opening quotes of a text with line breaks. -/
def firstBreak (s : List Char) : List Char :=
  if s.contains '\n' then ['\n'] else []

/-- A text in a notation. -/
def write (s : List Char) : Quotation → List Char
  | basic => '"' :: escapeFrom false 0 s ++ ['"']
  | literal => '\'' :: s ++ ['\'']
  | basicTriple =>
    ['"', '"', '"'] ++ firstBreak s ++ escapeFrom true 0 s ++ ['"', '"', '"']
  | literalTriple => ['\'', '\'', '\''] ++ firstBreak s ++ s ++ ['\'', '\'', '\'']

end Quotation

/-- A text as a document writes it. -/
def quoted (s : List Char) : List Char :=
  (Quotation.choose s).write s

end BlobCache.Toml
