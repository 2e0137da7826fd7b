import BlobCache.Text.GraphemeExtend
import BlobCache.Text.Unprintable

/-!
# Quoted text in messages

A message that quotes text puts it between double quotes and writes every character that could not
be seen, or would end the quotation, as an escape: `\t`, `\r`, `\n`, `\0`, `\"`, `\\`, and
`\u` with the code point in braces for characters that extend a grapheme or have no visible form.
-/

namespace BlobCache.Quoted

/-- The escape of a code point by its number, in lower-case hexadecimal digits. -/
def numericEscape (c : Char) : List Char :=
  ['\\', 'u', '\x7b'] ++ Nat.toDigits 16 c.toNat ++ ['\x7d']

/-- How a character is written between the quotes. -/
def escape (c : Char) : List Char :=
  if c = '\t' then ['\\', 't']
  else if c = '\r' then ['\\', 'r']
  else if c = '\n' then ['\\', 'n']
  else if c = '\x00' then ['\\', '0']
  else if c = '"' then ['\\', '"']
  else if c = '\\' then ['\\', '\\']
  else if isGraphemeExtend c || isUnprintable c then numericEscape c
  else [c]

/-- A text between double quotes. -/
def quote (s : String) : String :=
  String.ofList ('"' :: s.toList.flatMap escape ++ ['"'])

end BlobCache.Quoted
