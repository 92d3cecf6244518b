import LedgerPost.Bytes.Basic

/-!
# SHA-256
-/

namespace LedgerPost.Sha256

/-- The chaining value. -/
structure State where
  a : UInt32
  b : UInt32
  c : UInt32
  d : UInt32
  e : UInt32
  f : UInt32
  g : UInt32
  h : UInt32

/-- The initial chaining value. -/
def seed : State :=
  ⟨0x6a09e667, 0xbb67ae85, 0x3c6ef372, 0xa54ff53a, 0x510e527f, 0x9b05688c, 0x1f83d9ab, 0x5be0cd19⟩

/-- The constant of each round. -/
def constants : List UInt32 := [
  0x428a2f98, 0x71374491, 0xb5c0fbcf, 0xe9b5dba5, 0x3956c25b, 0x59f111f1, 0x923f82a4, 0xab1c5ed5,
  0xd807aa98, 0x12835b01, 0x243185be, 0x550c7dc3, 0x72be5d74, 0x80deb1fe, 0x9bdc06a7, 0xc19bf174,
  0xe49b69c1, 0xefbe4786, 0x0fc19dc6, 0x240ca1cc, 0x2de92c6f, 0x4a7484aa, 0x5cb0a9dc, 0x76f988da,
  0x983e5152, 0xa831c66d, 0xb00327c8, 0xbf597fc7, 0xc6e00bf3, 0xd5a79147, 0x06ca6351, 0x14292967,
  0x27b70a85, 0x2e1b2138, 0x4d2c6dfc, 0x53380d13, 0x650a7354, 0x766a0abb, 0x81c2c92e, 0x92722c85,
  0xa2bfe8a1, 0xa81a664b, 0xc24b8b70, 0xc76c51a3, 0xd192e819, 0xd6990624, 0xf40e3585, 0x106aa070,
  0x19a4c116, 0x1e376c08, 0x2748774c, 0x34b0bcb5, 0x391c0cb3, 0x4ed8aa4a, 0x5b9cca4f, 0x682e6ff3,
  0x748f82ee, 0x78a5636f, 0x84c87814, 0x8cc70208, 0x90befffa, 0xa4506ceb, 0xbef9a3f7, 0xc67178f2]

/-- Rotates a word to the right. -/
def rotate (w n : UInt32) : UInt32 := (w >>> n) ||| (w <<< (32 - n))

/-- Extends the words of a block by one. -/
def extend (w : Array UInt32) : Array UInt32 :=
  let ago (back : Nat) : UInt32 := w.getD (w.size - back) 0
  let s₀ := rotate (ago 15) 7 ^^^ rotate (ago 15) 18 ^^^ (ago 15 >>> 3)
  let s₁ := rotate (ago 2) 17 ^^^ rotate (ago 2) 19 ^^^ (ago 2 >>> 10)
  w.push (ago 16 + s₀ + ago 7 + s₁)

/-- The words of a block, one for each round. -/
def words (block : Bytes) : Array UInt32 :=
  let own : List UInt32 := (List.range 16).map fun i =>
    ((block.drop (4 * i)).take 4).foldl (fun w b => (w <<< 8) ||| b.toUInt32) 0
  Nat.repeat extend 48 own.toArray

/-- One round. -/
def round (s : State) (k w : UInt32) : State :=
  let s₁ := rotate s.e 6 ^^^ rotate s.e 11 ^^^ rotate s.e 25
  let choice := (s.e &&& s.f) ^^^ (~~~ s.e &&& s.g)
  let t₁ := s.h + s₁ + choice + k + w
  let s₀ := rotate s.a 2 ^^^ rotate s.a 13 ^^^ rotate s.a 22
  let majority := (s.a &&& s.b) ^^^ (s.a &&& s.c) ^^^ (s.b &&& s.c)
  ⟨t₁ + (s₀ + majority), s.a, s.b, s.c, s.d + t₁, s.e, s.f, s.g⟩

/-- Takes in a block. -/
def compress (s : State) (block : Bytes) : State :=
  let t := (constants.zip (words block).toList).foldl (fun t (k, w) => round t k w) s
  ⟨s.a + t.a, s.b + t.b, s.c + t.c, s.d + t.d, s.e + t.e, s.f + t.f, s.g + t.g, s.h + t.h⟩

/-- Takes in the full blocks of padded data. -/
def absorb (s : State) (data : Bytes) : State :=
  match _ : data with
  | [] => s
  | _ :: _ => absorb (compress s (data.take 64)) (data.drop 64)
termination_by data.length
decreasing_by subst_vars; simp only [List.length_drop, List.length_cons]; omega

/-- The data with a mark, zero bytes and its length in bits, which make full blocks. -/
def padded (data : Bytes) : Bytes :=
  data ++ 0x80 :: List.replicate ((119 - data.length % 64) % 64) 0
    ++ Bytes.bigEndian 8 (8 * data.length)

/-- A word of a digest, most significant byte first. -/
def wordBytes (w : UInt32) : Bytes := Bytes.bigEndian 4 w.toNat

/-- The digest of a byte string. -/
def hash (data : Bytes) : Block 32 :=
  let s := absorb seed (padded data)
  { toList := wordBytes s.a ++ wordBytes s.b ++ wordBytes s.c ++ wordBytes s.d
      ++ wordBytes s.e ++ wordBytes s.f ++ wordBytes s.g ++ wordBytes s.h
    length_toList := by simp [wordBytes] }

end LedgerPost.Sha256
