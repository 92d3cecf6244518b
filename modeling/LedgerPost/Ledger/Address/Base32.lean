import LedgerPost.Bytes.Basic

/-!
# Groups of five bits

Bytes are cut into groups of five bits, most significant bit first, where zero bits fill up the
last group. The other way round, bits that do not fill a byte are left out.
-/

namespace LedgerPost.Base32

/-- A group of five bits. -/
abbrev Quintet := Fin 32

/-- The lowest five bits of a number. -/
def quintet (n : Nat) : Quintet := Fin.ofNat 32 n

/-! ### Bits -/

/-- The `width` lowest bits of a number, most significant first. -/
def bits : Nat → Nat → List Bool
  | 0, _ => []
  | width + 1, n => n.testBit width :: bits width n

/-- The number that a list of bits spells, most significant first. -/
def ofBits (bs : List Bool) : Nat := bs.foldl (fun n b => 2 * n + b.toNat) 0

@[simp] theorem length_bits (width n : Nat) : (bits width n).length = width := by
  induction width with
  | zero => rfl
  | succ width ih => simp [bits, ih]

/-! ### Bytes and quintets -/

/-- Bits as groups of five, the last one filled up with zeros. -/
def quintetsOfBits : List Bool → List Quintet
  | a :: b :: c :: d :: e :: rest => quintet (ofBits [a, b, c, d, e]) :: quintetsOfBits rest
  | [] => []
  | rest => [quintet (ofBits ((rest ++ [false, false, false, false]).take 5))]

/-- Bits as groups of eight. What does not fill a group is left out. -/
def bytesOfBits : List Bool → Bytes
  | a :: b :: c :: d :: e :: f :: g :: h :: rest =>
    UInt8.ofNat (ofBits [a, b, c, d, e, f, g, h]) :: bytesOfBits rest
  | _ => []

/-- The quintets of a byte string. -/
def ofBytes (bs : Bytes) : List Quintet := quintetsOfBits (bs.flatMap fun b => bits 8 b.toNat)

/-- The bytes that quintets spell. -/
def toBytes (qs : List Quintet) : Bytes := bytesOfBits (qs.flatMap fun q => bits 5 q.val)

/-! ### Characters -/

/-- The characters of the quintets. -/
def alphabet : List Char :=
  ['q', 'p', 'z', 'r', 'y', '9', 'x', '8', 'g', 'f', '2', 't', 'v', 'd', 'w', '0',
    's', '3', 'j', 'n', '5', '4', 'k', 'h', 'c', 'e', '6', 'm', 'u', 'a', '7', 'l']

/-- The character of a quintet. -/
def symbol (q : Quintet) : Char := alphabet.getD q.val 'q'

/-- The quintet of an ASCII character. -/
def quintet? (b : UInt8) : Option Quintet :=
  (List.finRange 32).find? fun q => (symbol q).toUInt8 = b

end LedgerPost.Base32
