import LedgerPost.Curve.Point
import LedgerPost.Hash.Sha256

/-!
# Schnorr signatures

Signatures over secp256k1 with public keys that are the first coordinate of a point, where the
second coordinate is taken to be even. Signing is deterministic: its auxiliary randomness is 32
zero bytes.
-/

namespace LedgerPost

/-- A secret key. -/
structure SecretKey where
  scalar : Nat
  pos : 0 < scalar
  lt_order : scalar < Curve.groupOrder

/-- A public key: the first coordinate of a point. -/
structure PublicKey where
  bytes : Block 32
  deriving DecidableEq

/-- A signature: the first coordinate of the nonce point, then a scalar. -/
abbrev Signature := Block 64

/-! ### Keys -/

/-- A block as a secret key, if it is a scalar other than zero. -/
def SecretKey.ofBytes? (bs : Bytes) : Option SecretKey :=
  if bs.length = 32 then
    if h : 0 < Bytes.ofBigEndian bs ∧ Bytes.ofBigEndian bs < Curve.groupOrder then
      some ⟨_, h.1, h.2⟩
    else none
  else none

namespace Curve

/-- A coordinate as a block. -/
def Coordinate.bytes (x : Coordinate) : Block 32 := ⟨Bytes.bigEndian 32 x.val, by simp⟩

/-- The multiple of the generator by a scalar other than zero. -/
def generated (scalar : Nat) : AffinePoint :=
  (multiply scalar generator.toPoint).affine?.getD ⟨0, 0⟩

/-- The scalar that generates the same first coordinate with an even second one. -/
def evenScalar (scalar : Nat) : Nat :=
  if (generated scalar).y.val % 2 = 0 then scalar else groupOrder - scalar

end Curve

/-- The public key of a secret key. -/
def SecretKey.publicKey (key : SecretKey) : PublicKey :=
  ⟨Curve.Coordinate.bytes (Curve.generated key.scalar).x⟩

/-- The point of a public key, if there is one. -/
def PublicKey.point? (key : PublicKey) : Option Curve.AffinePoint :=
  (Curve.coordinate? (Bytes.ofBigEndian key.bytes.toList)).bind Curve.liftEven?

/-- A byte string as a public key, if it is the first coordinate of a point. -/
def PublicKey.ofBytes? (bs : Bytes) : Option PublicKey := do
  let key : PublicKey := ⟨← Block.ofList? 32 bs⟩
  if key.point?.isSome then some key else none

/-! ### Signatures -/

namespace Schnorr

/-- The digest of a byte string in a domain of use. -/
def tagged (tag : String) (bs : Bytes) : Block 32 :=
  let t := (Sha256.hash (Bytes.ofText tag)).toList
  Sha256.hash (t ++ t ++ bs)

/-- A digest as a scalar. -/
def scalar (digest : Block 32) : Nat := Bytes.ofBigEndian digest.toList % Curve.groupOrder

/-- The scalar that binds a nonce point, a key and a message. -/
def challenge (nonce : Bytes) (key : PublicKey) (message : Block 32) : Nat :=
  scalar (tagged "BIP0340/challenge" (nonce ++ key.bytes.toList ++ message.toList))

/-- The signature with a nonce point and a scalar. -/
def signature (nonce : Block 32) (s : Nat) : Signature :=
  ⟨nonce.toList ++ Bytes.bigEndian 32 s, by simp [nonce.length_toList]⟩

/-- The secret scalar of the nonce point, drawn from the key and the message. -/
def nonceScalar (key : SecretKey) (message : Block 32) : Nat :=
  let mask := tagged "BIP0340/aux" (Block.zero 32).toList
  let secret := Bytes.bigEndian 32 (Curve.evenScalar key.scalar)
  let masked := List.zipWith (· ^^^ ·) secret mask.toList
  scalar (tagged "BIP0340/nonce" (masked ++ key.publicKey.bytes.toList ++ message.toList))

/-- Signs a message digest. -/
def sign (key : SecretKey) (message : Block 32) : Signature :=
  let k := nonceScalar key message
  let nonce := Curve.Coordinate.bytes (Curve.generated k).x
  let e := challenge nonce.toList key.publicKey message
  signature nonce ((Curve.evenScalar k + e * Curve.evenScalar key.scalar) % Curve.groupOrder)

/-- Whether a signature of a message digest is valid for a key. -/
def verify (key : PublicKey) (message : Block 32) (signature : Signature) : Bool :=
  let nonce := signature.toList.take 32
  let s := Bytes.ofBigEndian (signature.toList.drop 32)
  match key.point?, Curve.coordinate? (Bytes.ofBigEndian nonce) with
  | some p, some r =>
    if s < Curve.groupOrder then
      let e := challenge nonce key message
      let sum := Curve.add (Curve.multiply s Curve.generator.toPoint)
        (Curve.multiply (Curve.groupOrder - e) p.toPoint)
      match sum.affine? with
      | some q => q.y.val % 2 = 0 && q.x = r
      | none => false
    else false
  | _, _ => false

end Schnorr

end LedgerPost
