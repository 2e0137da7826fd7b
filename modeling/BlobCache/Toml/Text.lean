/-!
# Texts in TOML documents

The four notations for texts. A basic text stands between `"` and may hold escapes; a literal text
stands between `'` and holds its characters as they are. Either may span lines when its quotes are
tripled. Then a line break directly after the opening quotes is dropped, one or two quotes may
stand anywhere, even next to the closing ones, and in a basic text a backslash at the end of a line
joins the next text to it.

Each reader starts behind the opening quotes and gives the text and what follows the closing ones.
-/

namespace BlobCache.Toml

/-- Whether a character may stand in a comment or a text: no control but the tab. -/
def isPlain (c : Char) : Bool :=
  c == '\t' || (0x20 ≤ c.toNat && c.toNat != 0x7F)

/-- Whether a character is a space or a tab. -/
def isBlank (c : Char) : Bool :=
  c == ' ' || c == '\t'

/-! ### Escapes -/

/-- The character that one letter behind a backslash stands for. -/
def shortEscape? (c : Char) : Option Char :=
  if c = 'b' then some '\x08'
  else if c = 't' then some '\t'
  else if c = 'n' then some '\n'
  else if c = 'f' then some '\x0c'
  else if c = 'r' then some '\r'
  else if c = '"' then some '"'
  else if c = '\\' then some '\\'
  else none

/-- The value of a hexadecimal digit. -/
def hexDigit? (c : Char) : Option Nat :=
  let n := c.toNat
  if 0x30 ≤ n ∧ n ≤ 0x39 then some (n - 0x30)
  else if 0x41 ≤ n ∧ n ≤ 0x46 then some (n - 0x41 + 10)
  else if 0x61 ≤ n ∧ n ≤ 0x66 then some (n - 0x61 + 10)
  else none

/-- The number that hexadecimal digits write. -/
def hexNumber? (digits : List Char) : Option Nat :=
  digits.foldlM (fun n c => (hexDigit? c).map (16 * n + ·)) 0

/-- The character whose code point hexadecimal digits write. -/
def charOfHex? (digits : List Char) : Option Char :=
  (hexNumber? digits).bind fun n => if n.isValidChar then some (Char.ofNat n) else none

/-- Puts a character in front of a text that was read. -/
def consTo (c : Char) (read : Option (List Char × List Char)) : Option (List Char × List Char) :=
  read.map fun (text, rest) => (c :: text, rest)

/-! ### Texts on one line -/

/-- Reads a basic text. -/
def basicText : List Char → Option (List Char × List Char)
  | [] => none
  | c :: s =>
    if c = '"' then some ([], s)
    else if c = '\\' then
      match s with
      | [] => none
      | e :: s =>
        if e = 'u' then
          match s with
          | h₁ :: h₂ :: h₃ :: h₄ :: s =>
            (charOfHex? [h₁, h₂, h₃, h₄]).bind fun c => consTo c (basicText s)
          | _ => none
        else if e = 'U' then
          match s with
          | h₁ :: h₂ :: h₃ :: h₄ :: h₅ :: h₆ :: h₇ :: h₈ :: s =>
            (charOfHex? [h₁, h₂, h₃, h₄, h₅, h₆, h₇, h₈]).bind fun c => consTo c (basicText s)
          | _ => none
        else (shortEscape? e).bind fun c => consTo c (basicText s)
    else if isPlain c then consTo c (basicText s)
    else none

/-- Reads a literal text. -/
def literalText : List Char → Option (List Char × List Char)
  | [] => none
  | c :: s =>
    if c = '\'' then some ([], s)
    else if isPlain c then consTo c (literalText s)
    else none

/-! ### Texts over several lines -/

/-- The quotes that belong to the text although they stand behind its three closing quotes, and
what follows them. -/
def surplusQuotes (quote : Char) : List Char → List Char × List Char
  | c₁ :: c₂ :: s =>
    if c₁ = quote then
      if c₂ = quote then ([quote, quote], s) else ([quote], c₂ :: s)
    else ([], c₁ :: c₂ :: s)
  | [c] => if c = quote then ([quote], []) else ([], [c])
  | [] => ([], [])

/-- What follows if the next two characters are quotes too. -/
def afterTwo? (quote : Char) : List Char → Option (List Char)
  | c₁ :: c₂ :: s => if c₁ = quote ∧ c₂ = quote then some s else none
  | _ => none

/-- Whether only blanks stand before the end of the line. -/
def endsLine (s : List Char) : Bool :=
  match s.dropWhile isBlank with
  | '\n' :: _ => true
  | '\r' :: '\n' :: _ => true
  | _ => false

/-- Reads a basic text over several lines. While `joining` is set, blanks and line breaks are
passed over. -/
def basicLines (joining : Bool) : List Char → Option (List Char × List Char)
  | [] => none
  | c :: s =>
    if joining && (isBlank c || c == '\n' || (c == '\r' && s.head? == some '\n')) then
      basicLines true s
    else if c = '"' then
      match afterTwo? '"' s with
      | some s => some (surplusQuotes '"' s)
      | none => consTo c (basicLines false s)
    else if c = '\\' then
      if endsLine s then basicLines true s
      else
        match s with
        | [] => none
        | e :: s =>
          if e = 'u' then
            match s with
            | h₁ :: h₂ :: h₃ :: h₄ :: s =>
              (charOfHex? [h₁, h₂, h₃, h₄]).bind fun c => consTo c (basicLines false s)
            | _ => none
          else if e = 'U' then
            match s with
            | h₁ :: h₂ :: h₃ :: h₄ :: h₅ :: h₆ :: h₇ :: h₈ :: s =>
              (charOfHex? [h₁, h₂, h₃, h₄, h₅, h₆, h₇, h₈]).bind fun c =>
                consTo c (basicLines false s)
            | _ => none
          else (shortEscape? e).bind fun c => consTo c (basicLines false s)
    else if c = '\n' then consTo c (basicLines false s)
    else if c = '\r' then
      if s.head? = some '\n' then basicLines false s else none
    else if isPlain c then consTo c (basicLines false s)
    else none

/-- Reads a literal text over several lines. -/
def literalLines : List Char → Option (List Char × List Char)
  | [] => none
  | c :: s =>
    if c = '\'' then
      match afterTwo? '\'' s with
      | some s => some (surplusQuotes '\'' s)
      | none => consTo c (literalLines s)
    else if c = '\n' then consTo c (literalLines s)
    else if c = '\r' then
      if s.head? = some '\n' then literalLines s else none
    else if isPlain c then consTo c (literalLines s)
    else none

/-- Drops a line break directly behind the opening quotes. -/
def dropFirstBreak : List Char → List Char
  | '\n' :: s => s
  | '\r' :: '\n' :: s => s
  | s => s

/-- Reads a text behind its first quote, which tells the notation. -/
def textBehind (quote : Char) (s : List Char) : Option (List Char × List Char) :=
  match afterTwo? quote s with
  | some s =>
    if quote = '"' then basicLines false (dropFirstBreak s) else literalLines (dropFirstBreak s)
  | none => if quote = '"' then basicText s else literalText s

end BlobCache.Toml
