import BlobCache.Bytes

/-!
# UTF-8

Characters are written by `Utf8.encode` and read back by `Utf8.decode`. A byte string that is not
UTF-8 is refused with a `Fault` that says how many of its first bytes are well formed and how long
the malformed piece behind them is; a string that merely ends too early has no malformed piece.

The second byte of a sequence decides whether the sequence is overlong, a surrogate or beyond
U+10FFFF, so its range depends on the lead byte (`secondRange`); all later bytes range over
`80`–`BF`.
-/

namespace BlobCache.Utf8

/-- The UTF-8 bytes of a text. -/
def encode (s : List Char) : Bytes :=
  s.flatMap String.utf8EncodeChar

/-- Where a byte string stops being UTF-8. -/
structure Fault where
  /-- Number of well-formed bytes before the fault. -/
  validUpTo : Nat
  /-- Length of the malformed piece; `none` if the input ends inside a sequence that is well
  formed as far as it goes. -/
  length? : Option Nat
  deriving DecidableEq, Repr

/-- The wording of a fault. -/
def Fault.message (f : Fault) : String :=
  match f.length? with
  | some n => s!"invalid utf-8 sequence of {n} bytes from index {f.validUpTo}"
  | none => s!"incomplete utf-8 byte sequence from index {f.validUpTo}"

/-- Whether a byte continues a sequence. -/
def isContinuation (b : UInt8) : Bool :=
  0x80 ≤ b && b ≤ 0xBF

/-- Whether `b` may follow the lead byte `lead` of a sequence of three or four bytes. -/
def isSecond (lead b : UInt8) : Bool :=
  if lead = 0xE0 then 0xA0 ≤ b && b ≤ 0xBF
  else if lead = 0xED then 0x80 ≤ b && b ≤ 0x9F
  else if lead = 0xF0 then 0x90 ≤ b && b ≤ 0xBF
  else if lead = 0xF4 then 0x80 ≤ b && b ≤ 0x8F
  else isContinuation b

/-- The six payload bits of a continuation byte. -/
def payload (b : UInt8) : Nat :=
  b.toNat % 64

/-- The character of a sequence of two bytes. -/
def char2 (a b : UInt8) : Char :=
  Char.ofNat (a.toNat % 32 * 64 + payload b)

/-- The character of a sequence of three bytes. -/
def char3 (a b c : UInt8) : Char :=
  Char.ofNat ((a.toNat % 16 * 64 + payload b) * 64 + payload c)

/-- The character of a sequence of four bytes. -/
def char4 (a b c d : UInt8) : Char :=
  Char.ofNat (((a.toNat % 8 * 64 + payload b) * 64 + payload c) * 64 + payload d)

/-- Reads the text whose UTF-8 bytes follow `start` bytes that have been read already. -/
def decodeFrom (start : Nat) : Bytes → Except Fault (List Char)
  | [] => .ok []
  | a :: s =>
    if a < 0x80 then
      (decodeFrom (start + 1) s).map (Char.ofNat a.toNat :: ·)
    else if a < 0xC2 ∨ 0xF4 < a then
      .error ⟨start, some 1⟩
    else
      match s with
      | [] => .error ⟨start, none⟩
      | b :: s =>
        if a < 0xE0 then
          if isContinuation b then (decodeFrom (start + 2) s).map (char2 a b :: ·)
          else .error ⟨start, some 1⟩
        else if !isSecond a b then
          .error ⟨start, some 1⟩
        else
          match s with
          | [] => .error ⟨start, none⟩
          | c :: s =>
            if !isContinuation c then
              .error ⟨start, some 2⟩
            else if a < 0xF0 then
              (decodeFrom (start + 3) s).map (char3 a b c :: ·)
            else
              match s with
              | [] => .error ⟨start, none⟩
              | d :: s =>
                if isContinuation d then (decodeFrom (start + 4) s).map (char4 a b c d :: ·)
                else .error ⟨start, some 3⟩

/-- The text whose UTF-8 bytes these are. -/
def decode (bytes : Bytes) : Except Fault (List Char) :=
  decodeFrom 0 bytes

end BlobCache.Utf8
