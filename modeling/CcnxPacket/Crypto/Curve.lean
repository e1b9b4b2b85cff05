import CcnxPacket.Crypto.Modular
import CcnxPacket.Octets

/-!
# Elliptic curves

The curves `y² = x³ + ax + b` over a prime field that the EC suites use, their group, in which sums
are made in weighted coordinates, and the encodings of points: compressed (two tags, one for each
parity of `y`), uncompressed, and compact (no parity; each curve has its own rule for which `y` is
meant).
-/

namespace CcnxPacket

/-- Which of the two `y` a compact encoding means. -/
inductive CompactRule where
  | even
  | smaller
deriving DecidableEq, Repr

/-- The chosen one of a root and its negative, of which one is even. -/
def CompactRule.choose : CompactRule → Nat → Nat → Nat
  | even, y, negative => if y % 2 = 0 then y else negative
  | smaller, y, negative => min y negative

/-- A curve over a prime field with a generator of prime order. -/
structure Curve where
  prime : Nat
  a : Nat
  b : Nat
  baseX : Nat
  baseY : Nat
  order : Nat
  /-- Octets of a coordinate and of a scalar. -/
  width : Nat
  compact : CompactRule
deriving DecidableEq

/-- A point of a curve. -/
inductive Point where
  | infinity
  | affine (x y : Nat)
deriving DecidableEq, Repr

/-- Weighted coordinates of the point `(x / z², y / z³)`, or of infinity where `z` is zero. They are
added without a division. -/
structure Weighted where
  x : Nat
  y : Nat
  z : Nat

namespace Curve

/-- The curve secp256k1. -/
def secp256k1 : Curve where
  prime := 0xFFFFFFFFFFFFFFFFFFFFFFFFFFFFFFFFFFFFFFFFFFFFFFFFFFFFFFFEFFFFFC2F
  a := 0
  b := 7
  baseX := 0x79BE667EF9DCBBAC55A06295CE870B07029BFCDB2DCE28D959F2815B16F81798
  baseY := 0x483ADA7726A3C4655DA4FBFC0E1108A8FD17B448A68554199C47D08FFB10D4B8
  order := 0xFFFFFFFFFFFFFFFFFFFFFFFFFFFFFFFEBAAEDCE6AF48A03BBFD25E8CD0364141
  width := 32
  compact := .even

/-- The curve secp384r1. -/
def secp384r1 : Curve where
  prime :=
    0xFFFFFFFFFFFFFFFFFFFFFFFFFFFFFFFFFFFFFFFFFFFFFFFFFFFFFFFFFFFFFFFEFFFFFFFF0000000000000000FFFFFFFF
  a :=
    0xFFFFFFFFFFFFFFFFFFFFFFFFFFFFFFFFFFFFFFFFFFFFFFFFFFFFFFFFFFFFFFFEFFFFFFFF0000000000000000FFFFFFFC
  b :=
    0xB3312FA7E23EE7E4988E056BE3F82D19181D9C6EFE8141120314088F5013875AC656398D8A2ED19D2A85C8EDD3EC2AEF
  baseX :=
    0xAA87CA22BE8B05378EB1C71EF320AD746E1D3B628BA79B9859F741E082542A385502F25DBF55296C3A545E3872760AB7
  baseY :=
    0x3617DE4A96262C6F5D9E98BF9292DC29F8F41DBD289A147CE9DA3113B5F0B8C00A60B1CE1D7E819D7A431D7C90EA0E5F
  order :=
    0xFFFFFFFFFFFFFFFFFFFFFFFFFFFFFFFFFFFFFFFFFFFFFFFFC7634D81F4372DDF581A0DB248B0A77AECEC196ACCC52973
  width := 48
  compact := .smaller

/-- The generator. -/
def base (curve : Curve) : Point := .affine curve.baseX curve.baseY

/-- The square of `y` at `x`. -/
def rightSide (curve : Curve) (x : Nat) : Nat := (x * x * x + curve.a * x + curve.b) % curve.prime

/-- Whether the coordinates are residues that satisfy the curve's equation. -/
def contains (curve : Curve) (x y : Nat) : Bool :=
  x < curve.prime && y < curve.prime && y * y % curve.prime == curve.rightSide x

/-! ### The group -/

/-- Twice a point in weighted coordinates. -/
def doubleWeighted (curve : Curve) (w : Weighted) : Weighted :=
  let p := curve.prime
  let weight := w.z * w.z % p
  let square := w.y * w.y % p
  let middle := 4 * w.x * square % p
  let slope := (3 * w.x * w.x + curve.a * weight * weight) % p
  let x := Modular.sub p (slope * slope) (2 * middle)
  { x, y := Modular.sub p (slope * Modular.sub p middle x) (8 * square * square)
    z := 2 * w.y * w.z % p }

/-- The sum of a point in weighted coordinates and the point `(x₀, y₀)`. -/
def addWeighted (curve : Curve) (w : Weighted) (x₀ y₀ : Nat) : Weighted :=
  let p := curve.prime
  let weight := w.z * w.z % p
  let across := Modular.sub p (x₀ * weight) w.x
  let up := Modular.sub p (y₀ * weight * w.z) w.y
  if w.z % p = 0 then { x := x₀, y := y₀, z := 1 }
  else if across = 0 then
    if up = 0 then curve.doubleWeighted w else { x := 1, y := 1, z := 0 }
  else
    let square := across * across % p
    let cube := square * across % p
    let middle := w.x * square % p
    let x := Modular.sub p (up * up) (cube + 2 * middle)
    { x, y := Modular.sub p (up * Modular.sub p middle x) (w.y * cube)
      z := w.z * across % p }

/-- The sum of `k` copies of the point `(x₀, y₀)`, by doubling and adding. -/
def mulWeighted (curve : Curve) (k x₀ y₀ : Nat) : Weighted :=
  if k = 0 then { x := 1, y := 1, z := 0 }
  else
    let even := curve.doubleWeighted (curve.mulWeighted (k / 2) x₀ y₀)
    if k % 2 = 1 then curve.addWeighted even x₀ y₀ else even
termination_by k

/-- The point with the given weighted coordinates. -/
def ofWeighted (curve : Curve) (w : Weighted) : Point :=
  let p := curve.prime
  if w.z % p = 0 then .infinity
  else
    let inverse := Modular.inverse p w.z
    let square := inverse * inverse % p
    .affine (w.x * square % p) (w.y * square * inverse % p)

/-- The sum of two points. -/
def add (curve : Curve) : Point → Point → Point
  | .infinity, q => q
  | q, .infinity => q
  | .affine x₁ y₁, .affine x₂ y₂ =>
    curve.ofWeighted (curve.addWeighted { x := x₁, y := y₁, z := 1 } x₂ y₂)

/-- The sum of `k` copies of a point. -/
def mul (curve : Curve) (k : Nat) : Point → Point
  | .infinity => .infinity
  | .affine x y => curve.ofWeighted (curve.mulWeighted k x y)

/-! ### Encodings -/

/-- A square root of a residue, when it has one; the curves' primes are three modulo four. -/
def squareRoot? (curve : Curve) (n : Nat) : Option Nat :=
  let root := Modular.power curve.prime n ((curve.prime + 1) / 4)
  if root * root % curve.prime = n % curve.prime then some root else none

/-- The point with the given `x` and the `y` that is chosen between a root and its negative. -/
def liftX? (curve : Curve) (x : Nat) (choose : Nat → Nat → Nat) : Option Point :=
  if x < curve.prime then
    (curve.squareRoot? (curve.rightSide x)).map fun y =>
      .affine x (choose y ((curve.prime - y) % curve.prime))
  else none

/-- The compressed encoding of a point. -/
def compress (curve : Curve) : Point → Octets
  | .infinity => [0]
  | .affine x y => UInt8.ofNat (2 + y % 2) :: bigEndian curve.width x

/-- The point that an encoding stands for. Infinity has no encoding here. -/
def decodePoint? (curve : Curve) : Octets → Option Point
  | [] => none
  | tag :: coordinates =>
    let x := ofBigEndian (coordinates.take curve.width)
    if coordinates.length = curve.width then
      if tag = 2 ∨ tag = 3 then
        curve.liftX? x fun y negative => if y % 2 = tag.toNat % 2 then y else negative
      else if tag = 5 then curve.liftX? x curve.compact.choose
      else none
    else if coordinates.length = 2 * curve.width ∧ tag = 4 then
      let y := ofBigEndian (coordinates.drop curve.width)
      if curve.contains x y then some (.affine x y) else none
    else none

end Curve

end CcnxPacket
