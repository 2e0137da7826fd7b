/-!
# Sets of characters

A set of characters given by ranges of code points, as the Unicode character database lists its
properties, and the White_Space property.
-/

namespace BlobCache

/-- A set of characters: pairs of a first and a last code point. -/
abbrev CharRanges := List (Nat × Nat)

namespace CharRanges

/-- Whether a character lies in one of the ranges. -/
def contains (ranges : CharRanges) (c : Char) : Bool :=
  ranges.any fun r => r.1 ≤ c.toNat && c.toNat ≤ r.2

/-- The characters with the Unicode property White_Space. -/
def whiteSpace : CharRanges :=
  [(0x9, 0xD), (0x20, 0x20), (0x85, 0x85), (0xA0, 0xA0), (0x1680, 0x1680), (0x2000, 0x200A),
   (0x2028, 0x2029), (0x202F, 0x202F), (0x205F, 0x205F), (0x3000, 0x3000)]

end CharRanges

/-- Whether a character has the Unicode property White_Space. -/
def isWhiteSpace (c : Char) : Bool :=
  CharRanges.whiteSpace.contains c

end BlobCache
