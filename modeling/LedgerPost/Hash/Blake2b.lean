import LedgerPost.Bytes.Basic

/-!
# BLAKE2b

The 32-byte BLAKE2b digest with a key of at most 64 bytes. A domain of use is told apart by its
key, not by a part of the data.
-/

namespace LedgerPost.Blake2b

/-- The chaining value. -/
abbrev State := Vector UInt64 8

/-- The words of a block, or the working vector. -/
abbrev Words := Vector UInt64 16

/-- The initial chaining value before the parameters are mixed in. -/
def seed : State := #v[
  0x6a09e667f3bcc908, 0xbb67ae8584caa73b, 0x3c6ef372fe94f82b, 0xa54ff53a5f1d36f1,
  0x510e527fade682d1, 0x9b05688c2b3e6c1f, 0x1f83d9abfb41bd6b, 0x5be0cd19137e2179]

/-- The order in which each round takes the words of a block. -/
def schedule : List (Vector (Fin 16) 16) :=
  let rows : List (Vector (Fin 16) 16) := [
    #v[0, 1, 2, 3, 4, 5, 6, 7, 8, 9, 10, 11, 12, 13, 14, 15],
    #v[14, 10, 4, 8, 9, 15, 13, 6, 1, 12, 0, 2, 11, 7, 5, 3],
    #v[11, 8, 12, 0, 5, 2, 15, 13, 10, 14, 3, 6, 7, 1, 9, 4],
    #v[7, 9, 3, 1, 13, 12, 11, 14, 2, 6, 5, 10, 4, 0, 15, 8],
    #v[9, 0, 5, 7, 2, 4, 10, 15, 14, 1, 11, 12, 6, 8, 3, 13],
    #v[2, 12, 6, 10, 0, 11, 8, 3, 4, 13, 7, 5, 15, 14, 1, 9],
    #v[12, 5, 1, 15, 14, 13, 4, 10, 0, 7, 6, 3, 9, 2, 8, 11],
    #v[13, 11, 7, 14, 12, 1, 3, 9, 5, 0, 15, 4, 8, 6, 2, 10],
    #v[6, 15, 14, 9, 11, 3, 0, 8, 12, 2, 13, 7, 1, 4, 10, 5],
    #v[10, 2, 8, 4, 7, 6, 1, 5, 15, 11, 9, 14, 3, 12, 13, 0]]
  rows ++ rows.take 2

/-! ### Compression -/

/-- Rotates a word to the right. -/
def rotate (w n : UInt64) : UInt64 := (w >>> n) ||| (w <<< (64 - n))

/-- Mixes two words of the block into four words of the working vector. -/
def mix (v : Words) (a b c d : Fin 16) (x y : UInt64) : Words :=
  let va := v[a] + v[b] + x
  let vd := rotate (v[d] ^^^ va) 32
  let vc := v[c] + vd
  let vb := rotate (v[b] ^^^ vc) 24
  let va := va + vb + y
  let vd := rotate (vd ^^^ va) 16
  let vc := vc + vd
  let vb := rotate (vb ^^^ vc) 63
  (((v.set a va).set b vb).set c vc).set d vd

/-- One round: the columns, then the diagonals. -/
def round (m : Words) (v : Words) (row : Vector (Fin 16) 16) : Words :=
  let v := mix v 0 4 8 12 m[row[0]] m[row[1]]
  let v := mix v 1 5 9 13 m[row[2]] m[row[3]]
  let v := mix v 2 6 10 14 m[row[4]] m[row[5]]
  let v := mix v 3 7 11 15 m[row[6]] m[row[7]]
  let v := mix v 0 5 10 15 m[row[8]] m[row[9]]
  let v := mix v 1 6 11 12 m[row[10]] m[row[11]]
  let v := mix v 2 7 8 13 m[row[12]] m[row[13]]
  mix v 3 4 9 14 m[row[14]] m[row[15]]

/-- The word of at most eight bytes. -/
def word (bs : Bytes) : UInt64 := bs.foldr (fun b w => (w <<< 8) ||| b.toUInt64) 0

/-- The words of a block, filled up with zero bytes. -/
def words (block : Bytes) : Words :=
  Vector.ofFn fun i => word ((block.drop (8 * i.val)).take 8)

/-- Takes in a block, where `count` is the number of bytes up to its end. -/
def compress (h : State) (count : Nat) (isLast : Bool) (block : Bytes) : State :=
  let v := h ++ seed
  let v := v.set 12 (v[12] ^^^ UInt64.ofNat count)
  let v := v.set 13 (v[13] ^^^ UInt64.ofNat (count / UInt64.size))
  let v := if isLast then v.set 14 (~~~ v[14]) else v
  let v : Words := schedule.foldl (round (words block)) v
  Vector.ofFn fun i =>
    have := i.isLt
    h[i] ^^^ v[i.val] ^^^ v[i.val + 8]

/-- Takes in the blocks of what is left, of which only the last may be short. -/
def absorb (h : State) (count : Nat) (data : Bytes) : State :=
  match _ : data.drop 128 with
  | [] => compress h (count + data.length) true data
  | b :: rest => absorb (compress h (count + 128) false (data.take 128)) (count + 128) (b :: rest)
termination_by data.length
decreasing_by
  rename_i hs
  rw [← hs, List.length_drop]
  have := congrArg List.length hs
  simp at this
  omega

/-! ### Digests -/

/-- A key of at most 64 bytes. -/
structure Key where
  toList : Bytes
  length_le : toList.length ≤ 64
  deriving DecidableEq

/-- A byte string as a key, if it is not too long. -/
def Key.ofList? (bs : Bytes) : Option Key :=
  if h : bs.length ≤ 64 then some ⟨bs, h⟩ else none

/-- The first block of keyed data. There is none without a key. -/
def Key.block (key : Key) : Bytes :=
  if key.toList.isEmpty then []
  else key.toList ++ List.replicate (128 - key.toList.length) 0

/-- The chaining value at the start, where the lengths of key and digest are mixed in. -/
def start (key : Key) : State :=
  seed.set 0 (seed[0] ^^^ ((0x01010020 : UInt64) + (UInt64.ofNat key.toList.length <<< 8)))

/-- The first half of a chaining value, as bytes. -/
def digest (h : State) : Block 32 where
  toList := Bytes.word64 h[0] ++ Bytes.word64 h[1] ++ Bytes.word64 h[2] ++ Bytes.word64 h[3]
  length_toList := by simp [Bytes.word64]

/-- The keyed digest of a byte string. -/
def hash (key : Key) (data : Bytes) : Block 32 :=
  digest (absorb (start key) 0 (key.block ++ data))

end LedgerPost.Blake2b
