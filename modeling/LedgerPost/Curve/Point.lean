/-!
# The curve secp256k1

Points of `y² = x³ + 7` over the prime field, in Jacobian coordinates, and their multiples.
-/

namespace LedgerPost.Curve

/-- The order of the field, which is `2²⁵⁶ - 2³² - 977`. -/
def fieldOrder : Nat := 0xfffffffffffffffffffffffffffffffffffffffffffffffffffffffefffffc2f

/-- The number of points. -/
def groupOrder : Nat := 0xfffffffffffffffffffffffffffffffebaaedce6af48a03bbfd25e8cd0364141

theorem fieldOrder_pos : 0 < fieldOrder := Nat.succ_pos _

instance : @NeZero Nat Zero.ofOfNat0 fieldOrder := ⟨Nat.ne_of_gt fieldOrder_pos⟩

/-! ### The field -/

/-- An element of the field. -/
abbrev Coordinate := Fin fieldOrder

/-- A power, by repeated squaring. -/
def power (a : Coordinate) (n : Nat) : Coordinate :=
  if n = 0 then 1
  else
    let half := power a (n / 2)
    if n % 2 = 1 then half * half * a else half * half
termination_by n

/-- The inverse of an element other than zero. -/
def inverse (a : Coordinate) : Coordinate := power a (fieldOrder - 2)

/-- A square root, if there is one. -/
def squareRoot? (a : Coordinate) : Option Coordinate :=
  let r := power a ((fieldOrder + 1) / 4)
  if r * r = a then some r else none

/-- A number as an element of the field, if it is small enough. -/
def coordinate? (n : Nat) : Option Coordinate :=
  if h : n < fieldOrder then some ⟨n, h⟩ else none

/-! ### Points -/

/-- The point `(x / z², y / z³)`, or the point at infinity when `z` is zero. -/
structure Point where
  x : Coordinate
  y : Coordinate
  z : Coordinate

/-- A point other than infinity, by its coordinates. -/
structure AffinePoint where
  x : Coordinate
  y : Coordinate
  deriving DecidableEq

/-- The neutral point. -/
def infinity : Point := ⟨1, 1, 0⟩

/-- A point by its coordinates. -/
def AffinePoint.toPoint (p : AffinePoint) : Point := ⟨p.x, p.y, 1⟩

/-- The coordinates of a point other than infinity. -/
def Point.affine? (p : Point) : Option AffinePoint :=
  if p.z = 0 then none
  else
    let w := inverse p.z
    some ⟨p.x * (w * w), p.y * (w * w * w)⟩

/-- The generator. -/
def generator : AffinePoint where
  x := Fin.ofNat _ 0x79be667ef9dcbbac55a06295ce870b07029bfcdb2dce28d959f2815b16f81798
  y := Fin.ofNat _ 0x483ada7726a3c4655da4fbfc0e1108a8fd17b448a68554199c47d08ffb10d4b8

/-- Twice a point. -/
def double (p : Point) : Point :=
  let a := p.x * p.x
  let b := p.y * p.y
  let c := b * b
  let d := 4 * p.x * b
  let e := 3 * a
  let x := e * e - 2 * d
  ⟨x, e * (d - x) - 8 * c, 2 * p.y * p.z⟩

/-- The sum of two points. -/
def add (p q : Point) : Point :=
  if p.z = 0 then q
  else if q.z = 0 then p
  else
    let pz := p.z * p.z
    let qz := q.z * q.z
    let px := p.x * qz
    let qx := q.x * pz
    let py := p.y * (qz * q.z)
    let qy := q.y * (pz * p.z)
    if px = qx then
      if py = qy then double p else infinity
    else
      let h := qx - px
      let r := qy - py
      let h₂ := h * h
      let h₃ := h₂ * h
      let v := px * h₂
      let x := r * r - h₃ - 2 * v
      ⟨x, r * (v - x) - py * h₃, h * (p.z * q.z)⟩

/-- A multiple of a point. -/
def multiply (n : Nat) (p : Point) : Point :=
  if n = 0 then infinity
  else
    let half := double (multiply (n / 2) p)
    if n % 2 = 1 then add half p else half
termination_by n

/-- The point with the given first coordinate and an even second one. -/
def liftEven? (x : Coordinate) : Option AffinePoint :=
  (squareRoot? (x * x * x + 7)).map fun y => ⟨x, if y.val % 2 = 0 then y else -y⟩

end LedgerPost.Curve
