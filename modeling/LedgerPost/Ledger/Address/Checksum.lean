import LedgerPost.Ledger.Address.Base32

/-!
# Address checksums

A checksum is the remainder of a polynomial over quintets, made of the tag and the payload.
-/

namespace LedgerPost.Checksum

open Base32

/-- What is added to a remainder for each bit that leaves it. -/
def generators : List Nat :=
  [0x98f2bc8e61, 0x79b76d99e2, 0xf33e5fb3c4, 0xae2eabe2a8, 0x1e4f43e470]

/-- Takes a quintet into a remainder of forty bits. -/
def step (c : Nat) (q : Quintet) : Nat :=
  let shifted := ((c % 0x800000000) * 32) ^^^ q.val
  generators.zipIdx.foldl (fun r (g, i) => if c.testBit (35 + i) then r ^^^ g else r) shifted

/-- The remainder of a list of quintets. -/
def remainder (qs : List Quintet) : Nat := qs.foldl step 1 ^^^ 1

/-- The quintets of a tag. -/
def tagQuintets (tag : String) : List Quintet := tag.toList.map fun c => quintet c.toNat

/-- The quintets of the checksum of a payload under a tag. -/
def quintets (tag : String) (payload : List Quintet) : List Quintet :=
  ofBytes (Bytes.bigEndian 5
    (remainder (tagQuintets tag ++ quintet 0 :: payload ++ List.replicate 8 (quintet 0))))

end LedgerPost.Checksum
