/-!
# Sizes for people

A number of bytes in the largest unit that it reaches, with one decimal: `512 B`, `1.5 KB`,
`3.0 MB`. The units are powers of 1024. The number is first rounded to 53 significant bits, and
the quotient by the unit then to tenths; both roundings send a tie to the even neighbour.
-/

namespace BlobCache.ByteSize

/-- The quotient rounded to the nearest integer, a tie to the even one. -/
def roundDiv (num den : Nat) : Nat :=
  let q := num / den
  let twice := 2 * (num % den)
  if twice < den then q
  else if den < twice then q + 1
  else if q % 2 = 0 then q else q + 1

/-- The nearest number with at most 53 significant bits. -/
def roundSignificant (n : Nat) : Nat :=
  let spare := Nat.pow 2 (n.log2 - 52)
  roundDiv n spare * spare

/-- `n` bytes in a unit of `size` bytes, with one decimal. -/
def inUnit (n size : Nat) (unit : String) : String :=
  let tenths := roundDiv (10 * roundSignificant n) size
  s!"{tenths / 10}.{tenths % 10} {unit}"

/-- The bytes in a kilobyte. -/
def kilobyte : Nat := 1024

/-- The bytes in a megabyte. -/
def megabyte : Nat := 1024 * kilobyte

/-- The bytes in a gigabyte. -/
def gigabyte : Nat := 1024 * megabyte

/-- A number of bytes as people read it. -/
def text (n : Nat) : String :=
  if gigabyte ≤ n then inUnit n gigabyte "GB"
  else if megabyte ≤ n then inUnit n megabyte "MB"
  else if kilobyte ≤ n then inUnit n kilobyte "KB"
  else s!"{n} B"

end BlobCache.ByteSize
