import LedgerPost.Bytes.Basic

/-!
# Variable-length counts

A count below `0xfd` is one byte. A larger one is a marker byte and the shortest word of 2, 4 or 8
bytes that holds it.
-/

namespace LedgerPost.Varint

/-- The bytes of a count. -/
def encode (n : UInt64) : Bytes :=
  if n < 0xfd then [n.toUInt8]
  else if n ≤ 0xffff then 0xfd :: Bytes.word16 n.toUInt16
  else if n ≤ 0xffffffff then 0xfe :: Bytes.word32 n.toUInt32
  else 0xff :: Bytes.word64 n

/-- The number of bytes of a count. -/
def width (n : UInt64) : Nat :=
  if n < 0xfd then 1
  else if n ≤ 0xffff then 3
  else if n ≤ 0xffffffff then 5
  else 9

@[simp] theorem length_encode (n : UInt64) : (encode n).length = width n := by
  unfold encode width
  split
  · rfl
  split
  · simp [Bytes.word16]
  split <;> simp [Bytes.word32, Bytes.word64]

/-- A byte string after its length. -/
def measured (bs : Bytes) : Bytes := encode bs.count ++ bs

end LedgerPost.Varint
