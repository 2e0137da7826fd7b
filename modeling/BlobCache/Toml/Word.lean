import BlobCache.Toml.Value

/-!
# Numbers, truth values and dates in TOML documents

A value that is neither a text nor a collection is one word of letters, digits and the signs
`+ - _ . :`. Underscores may group the digits of a number, and a decimal number other than zero
does not start with one. Integers have 64 bits. A floating-point number must not round to
positive infinity. Dates and times must exist, a leap second included.
-/

namespace BlobCache.Toml

/-- Whether a character may stand in a word. -/
def isWordChar (c : Char) : Bool :=
  c.isAlphanum || c == '+' || c == '-' || c == '_' || c == '.' || c == ':'

/-! ### Integers -/

/-- The digits of a group notation: digits, with single underscores between them. -/
def ungroup? (isDigit : Char → Bool) (s : List Char) : Option (List Char) :=
  let groups := s.splitOn '_'
  if groups.all fun g => g != [] && g.all isDigit then some groups.flatten else none

/-- The digits of a decimal number. -/
def decimal? (s : List Char) : Option (List Char) :=
  (ungroup? Char.isDigit s).bind fun digits =>
    if digits.head? = some '0' ∧ digits ≠ ['0'] then none else some digits

/-- The value of a digit in a base up to sixteen. -/
def digitValue (c : Char) : Nat :=
  if c.isDigit then c.toNat - 0x30 else (c.toLower).toNat - 0x61 + 10

/-- The number that digits write. -/
def number (base : Nat) (digits : List Char) : Nat :=
  digits.foldl (fun n c => base * n + digitValue c) 0

/-- Whether a character is a digit in a base up to sixteen. -/
def isDigitIn (base : Nat) (c : Char) : Bool :=
  (c.isDigit || ('a' ≤ c && c ≤ 'f') || ('A' ≤ c && c ≤ 'F')) && digitValue c < base

/-- The least number that is too great for an integer, 2 to the power of 63. -/
def integerBound : Nat := 9223372036854775808

/-- The number that a notation with a base mark writes. -/
def marked? (base : Nat) (s : List Char) : Option Int :=
  (ungroup? (isDigitIn base) s).bind fun digits =>
    let n := number base digits
    if n < integerBound then some n else none

/-- The number that a decimal notation writes. -/
def signed? (negative : Bool) (s : List Char) : Option Int :=
  (decimal? s).bind fun digits =>
    let n := number 10 digits
    if negative then
      if n ≤ integerBound then some (-(n : Int)) else none
    else
      if n < integerBound then some n else none

/-- The integer that a word writes. -/
def integer? : List Char → Option Int
  | '0' :: 'x' :: s => marked? 16 s
  | '0' :: 'o' :: s => marked? 8 s
  | '0' :: 'b' :: s => marked? 2 s
  | '+' :: s => signed? false s
  | '-' :: s => signed? true s
  | s => signed? false s

/-! ### Floating-point numbers -/

/-- Whether the number with these digits, the point standing before the last `places` of them and
the power of ten `exponent` applied, rounds to infinity in 64 bits. -/
def overflows (digits : List Char) (places : Nat) (exponent : Int) : Bool :=
  let mantissa := number 10 digits
  let scale := exponent - places
  -- The number lies from 10 ^ (magnitude - 1) up to 10 ^ magnitude.
  let magnitude := scale + (Nat.toDigits 10 mantissa).length
  if mantissa = 0 ∨ magnitude < 308 then false
  else if 310 < magnitude then true
  else
    let bound := Nat.pow 2 1024 - Nat.pow 2 970
    if 0 ≤ scale then decide (bound ≤ mantissa * Nat.pow 10 scale.toNat)
    else decide (bound * Nat.pow 10 (-scale).toNat ≤ mantissa)

/-- The exponent that follows the letter `e`. -/
def exponent? : List Char → Option Int
  | '+' :: s => (ungroup? Char.isDigit s).map fun digits => number 10 digits
  | '-' :: s => (ungroup? Char.isDigit s).map fun digits => -(number 10 digits : Int)
  | s => (ungroup? Char.isDigit s).map fun digits => number 10 digits

/-- Whether unsigned characters write a floating-point number: decimal digits with a fraction, an
exponent or both. -/
def isUnsignedFloat (positive : Bool) (s : List Char) : Bool :=
  let isMark (c : Char) : Bool := c == 'e' || c == 'E'
  let mantissa := s.takeWhile (!isMark ·)
  let whole := mantissa.takeWhile (· != '.')
  let fraction := match mantissa.dropWhile (· != '.') with
    | [] => some []
    | _ :: digits => ungroup? Char.isDigit digits
  let exponent := match s.dropWhile (!isMark ·) with
    | [] => some 0
    | _ :: e => exponent? e
  match decimal? whole, fraction, exponent with
  | some whole, some fraction, some exponent =>
    s.any (fun c => c == '.' || isMark c) &&
      !(positive && overflows (whole ++ fraction) fraction.length exponent)
  | _, _, _ => false

/-- Whether a word writes a floating-point number. -/
def isFloat (s : List Char) : Bool :=
  let (positive, s) := match s with
    | '+' :: s => (true, s)
    | '-' :: s => (false, s)
    | s => (true, s)
  s == ['i', 'n', 'f'] || s == ['n', 'a', 'n'] || isUnsignedFloat positive s

/-! ### Dates and times -/

/-- The number that two digits write. -/
def twoDigits? (a b : Char) : Option Nat :=
  if a.isDigit && b.isDigit then some (number 10 [a, b]) else none

/-- Number of days of a month. -/
def daysIn (year month : Nat) : Nat :=
  if month = 2 then
    if year % 4 = 0 ∧ (year % 100 ≠ 0 ∨ year % 400 = 0) then 29 else 28
  else if month = 4 ∨ month = 6 ∨ month = 9 ∨ month = 11 then 30
  else 31

/-- What follows a date. -/
def afterDate? : List Char → Option (List Char)
  | y₁ :: y₂ :: y₃ :: y₄ :: '-' :: m₁ :: m₂ :: '-' :: d₁ :: d₂ :: rest =>
    match twoDigits? y₁ y₂, twoDigits? y₃ y₄, twoDigits? m₁ m₂, twoDigits? d₁ d₂ with
    | some century, some year, some month, some day =>
      if 1 ≤ month ∧ month ≤ 12 ∧ 1 ≤ day ∧ day ≤ daysIn (100 * century + year) month then
        some rest
      else none
    | _, _, _, _ => none
  | _ => none

/-- Whether two digits write a number up to `greatest`. -/
def isUpTo (greatest : Nat) (a b : Char) : Bool :=
  (twoDigits? a b).any (· ≤ greatest)

/-- What follows a time of the day. -/
def afterTime? : List Char → Option (List Char)
  | h₁ :: h₂ :: ':' :: m₁ :: m₂ :: ':' :: s₁ :: s₂ :: rest =>
    if isUpTo 23 h₁ h₂ && isUpTo 59 m₁ m₂ && isUpTo 60 s₁ s₂ then
      match rest with
      | '.' :: digits =>
        if digits.head?.any Char.isDigit then some (digits.dropWhile Char.isDigit) else none
      | rest => some rest
    else none
  | _ => none

/-- Whether characters write the distance of a time zone from UTC. -/
def isOffset : List Char → Bool
  | ['Z'] => true
  | ['z'] => true
  | [sign, h₁, h₂, ':', m₁, m₂] =>
    (sign == '+' || sign == '-') && isUpTo 23 h₁ h₂ && isUpTo 59 m₁ m₂
  | _ => false

/-- Whether characters write a time of the day, perhaps in a time zone. -/
def isZonedTime (s : List Char) : Bool :=
  match afterTime? s with
  | some rest => rest == [] || isOffset rest
  | none => false

/-- Whether a word writes a date, a time of the day, or both. -/
def isDateTime (s : List Char) : Bool :=
  match afterDate? s with
  | some [] => true
  | some (c :: time) => (c == 'T' || c == 't') && isZonedTime time
  | none => afterTime? s == some []

/-! ### Words -/

/-- The value that a word writes. -/
def wordValue? (s : List Char) : Option Value :=
  if s = ['t', 'r', 'u', 'e'] then some (.boolean true)
  else if s = ['f', 'a', 'l', 's', 'e'] then some (.boolean false)
  else if isDateTime s then some .datetime
  else if isFloat s then some .float
  else (integer? s).map .integer

end BlobCache.Toml
