/-!
# Byte strings

Byte strings are lists of bytes. A number is written as a word of a fixed width, least significant
byte first unless said otherwise, and a `Block n` is a byte string whose length is `n`.
-/

namespace LedgerPost

/-- A string of bytes. -/
abbrev Bytes := List UInt8

namespace Bytes

/-! ### Words -/

/-- The `width` lowest bytes of a number, least significant first. -/
def littleEndian : Nat → Nat → Bytes
  | 0, _ => []
  | width + 1, n => UInt8.ofNat n :: littleEndian width (n / 256)

/-- The `width` lowest bytes of a number, most significant first. -/
def bigEndian (width n : Nat) : Bytes :=
  (littleEndian width n).reverse

/-- The number that a byte string spells, least significant byte first. -/
def ofLittleEndian : Bytes → Nat
  | [] => 0
  | b :: bs => b.toNat + 256 * ofLittleEndian bs

/-- The number that a byte string spells, most significant byte first. -/
def ofBigEndian (bs : Bytes) : Nat :=
  bs.foldl (fun n b => 256 * n + b.toNat) 0

@[simp] theorem length_littleEndian (width n : Nat) : (littleEndian width n).length = width := by
  induction width generalizing n with
  | zero => rfl
  | succ width ih => simp [littleEndian, ih]

@[simp] theorem length_bigEndian (width n : Nat) : (bigEndian width n).length = width := by
  simp [bigEndian]

/-- The two bytes of a 16-bit word. -/
def word16 (n : UInt16) : Bytes := littleEndian 2 n.toNat

/-- The four bytes of a 32-bit word. -/
def word32 (n : UInt32) : Bytes := littleEndian 4 n.toNat

/-- The eight bytes of a 64-bit word. -/
def word64 (n : UInt64) : Bytes := littleEndian 8 n.toNat

/-- The number of bytes, as a 64-bit word. -/
def count (bs : Bytes) : UInt64 := UInt64.ofNat bs.length

/-- A byte string after its length as a 64-bit word. -/
def measured (bs : Bytes) : Bytes := word64 bs.count ++ bs

/-! ### Text -/

/-- The UTF-8 bytes of a text. -/
def ofText (s : String) : Bytes := s.toUTF8.data.toList

/-- The text whose UTF-8 bytes are given, if there is one. -/
def text? (bs : Bytes) : Option String := String.fromUTF8? bs.toByteArray

@[simp] theorem text?_ofText (s : String) : text? (ofText s) = some s := by
  have h : (ofText s).toByteArray = s.toByteArray := by
    apply ByteArray.ext
    simp [ofText]
  rw [text?, h, String.fromUTF8?, dif_pos s.isValidUTF8]
  rfl

end Bytes

/-! ### Blocks -/

/-- A byte string of length `n`. -/
structure Block (n : Nat) where
  toList : Bytes
  length_toList : toList.length = n
  deriving DecidableEq

namespace Block

/-- A byte string as a block, if it has the block's length. -/
def ofList? (n : Nat) (bs : Bytes) : Option (Block n) :=
  if h : bs.length = n then some ⟨bs, h⟩ else none

/-- The block of zero bytes. -/
def zero (n : Nat) : Block n := ⟨List.replicate n 0, by simp⟩

/-- The block read backwards. -/
def reverse {n : Nat} (b : Block n) : Block n := ⟨b.toList.reverse, by simp [b.length_toList]⟩

@[simp] theorem ofList?_toList {n : Nat} (b : Block n) : ofList? n b.toList = some b := by
  simp [ofList?, b.length_toList]

/-- Bytes are read as a block exactly if they are those of the block. -/
theorem ofList?_eq_some_iff {n : Nat} {bs : Bytes} {b : Block n} :
    ofList? n bs = some b ↔ b.toList = bs := by
  constructor
  · intro h
    rw [ofList?] at h
    split at h
    · cases h
      rfl
    · cases h
  · rintro rfl
    exact ofList?_toList b

@[simp] theorem reverse_reverse {n : Nat} (b : Block n) : b.reverse.reverse = b := by
  simp [reverse]

end Block

end LedgerPost
