import LedgerPost.Bytes.Basic

/-!
# Hexadecimal text

A byte is written as two lowercase digits; digits of either case are read. A text is refused with
the first cause that applies: an odd length, a length other than the one asked for, a bad digit.
-/

namespace LedgerPost

/-- Why a text is not the hexadecimal form of a byte string. -/
inductive HexError
  | oddLength
  | wrongLength
  | badDigit (byte : UInt8) (position : Nat)
  deriving DecidableEq, Repr

namespace Hex

/-! ### Writing -/

/-- The two digits of a byte. -/
def digits (b : UInt8) : List Char :=
  [Nat.digitChar (b.toNat / 16), Nat.digitChar (b.toNat % 16)]

/-- The hexadecimal text of a byte string. -/
def encode (bs : Bytes) : String :=
  String.ofList (bs.flatMap digits)

/-! ### Reading -/

/-- The value of a digit, given as an ASCII byte. -/
def digitValue? (b : UInt8) : Option Nat :=
  let n := b.toNat
  if 48 ≤ n ∧ n ≤ 57 then some (n - 48)
  else if 97 ≤ n ∧ n ≤ 102 then some (n - 87)
  else if 65 ≤ n ∧ n ≤ 70 then some (n - 55)
  else none

/-- The value of the digit at a position. -/
def digit (position : Nat) (b : UInt8) : Except HexError Nat :=
  match digitValue? b with
  | some v => .ok v
  | none => .error (.badDigit b position)

/-- Reads pairs of digits, the first of them at `position`. -/
def decodePairs (position : Nat) : Bytes → Except HexError Bytes
  | [] => .ok []
  | [_] => .error .oddLength
  | high :: low :: rest => do
    let h ← digit position high
    let l ← digit (position + 1) low
    let bs ← decodePairs (position + 2) rest
    return UInt8.ofNat (16 * h + l) :: bs

/-- Reads digits given as ASCII bytes. -/
def decodeDigits (ds : Bytes) : Except HexError Bytes :=
  if ds.length % 2 = 1 then .error .oddLength else decodePairs 0 ds

/-- Reads a hexadecimal text. -/
def decode (s : String) : Except HexError Bytes :=
  decodeDigits (Bytes.ofText s)

/-- Reads the hexadecimal text of a block. -/
def decodeBlock (n : Nat) (s : String) : Except HexError (Block n) :=
  let ds := Bytes.ofText s
  if ds.length % 2 = 1 then .error .oddLength
  else if ds.length ≠ 2 * n then .error .wrongLength
  else do
    let bs ← decodePairs 0 ds
    match Block.ofList? n bs with
    | some b => return b
    | none => throw .wrongLength

end Hex

namespace HexError

/--
A byte as a quoted Latin-1 character. Control characters, the no-break space and the soft hyphen
are written by name or code point.
-/
def quoteByte (b : UInt8) : String :=
  let n := b.toNat
  let body :=
    if n = 0 then "\\0"
    else if n = 9 then "\\t"
    else if n = 10 then "\\n"
    else if n = 13 then "\\r"
    else if n = 39 then "\\'"
    else if n = 92 then "\\\\"
    else if n < 32 ∨ 127 ≤ n ∧ n ≤ 160 ∨ n = 173 then
      "\\u\x7b" ++ String.ofList (Nat.toDigits 16 n) ++ "\x7d"
    else String.singleton (Char.ofNat n)
  "'" ++ body ++ "'"

/-- The wording of a refusal. -/
def message : HexError → String
  | .oddLength => "Odd number of digits"
  | .wrongLength => "Invalid string length"
  | .badDigit b position => s!"Invalid character {quoteByte b} at position {position}"

end HexError

end LedgerPost
