import CcnxPacket.Crypto.Curve
import CcnxPacket.Hash

/-!
# ECDSA

Signatures are the two numbers `r` and `s`, each as wide as a scalar. The nonce is derived from the
private scalar and the digest by an HMAC generator, so a signature is a function of key and digest.
A suite may demand the smaller of the two values that `s` can take, in signing and in checking.
-/

namespace CcnxPacket.Ecdsa

/-- What an ECDSA suite fixes. -/
structure Parameters where
  curve : Curve
  /-- The hash of the nonce generator, with digests as wide as a scalar. -/
  hash : HashFunction
  /-- Whether `s` has to be the smaller of its two values. -/
  lowS : Bool

/-- Signatures on secp256k1. -/
def secp256k1 : Parameters := { curve := .secp256k1, hash := .sha256, lowS := true }

/-- Signatures on secp384r1. -/
def secp384r1 : Parameters := { curve := .secp384r1, hash := .sha384, lowS := false }

/-- A private scalar and its public point. -/
structure KeyPair (params : Parameters) where
  scalar : Nat
  point : Point
  point_eq : point = params.curve.mul scalar params.curve.base

/-- The key pair of a scalar. -/
def KeyPair.ofScalar (params : Parameters) (scalar : Nat) : KeyPair params :=
  { scalar, point := params.curve.mul scalar params.curve.base, point_eq := rfl }

/-- The public key in its compressed encoding. -/
def KeyPair.publicKey {params : Parameters} (key : KeyPair params) : Octets :=
  params.curve.compress key.point

/-! ### Nonces -/

/-- The state of the nonce generator. -/
structure Generator where
  key : Octets
  value : Octets

/-- The generator after it has taken in more material. -/
def Generator.mix (hash : HashFunction) (g : Generator) (material : Octets) : Generator :=
  let key := hash.mac g.key (g.value ++ material)
  { key, value := hash.mac key g.value }

/-- The generator for a scalar and a digest. -/
def Generator.start (hash : HashFunction) (scalar digest : Octets) : Generator :=
  let g : Generator :=
    { key := List.replicate hash.size 0, value := List.replicate hash.size 1 }
  (g.mix hash (0 :: scalar ++ digest)).mix hash (1 :: scalar ++ digest)

/-- The first of the next `tries` values that is a scalar between one and the order. -/
def Generator.next (params : Parameters) : (tries : Nat) → Generator → Nat
  | 0, _ => 0
  | tries + 1, g =>
    let value := params.hash.mac g.key g.value
    let nonce := ofBigEndian value
    if 0 < nonce ∧ nonce < params.curve.order then nonce
    else Generator.next params tries (Generator.mix params.hash { g with value } [0])

/-- The nonce for a scalar and a digest. -/
def nonce (params : Parameters) (scalar : Nat) (digest : Octets) : Nat :=
  Generator.next params 256
    (Generator.start params.hash (bigEndian params.curve.width scalar) digest)

/-! ### Signatures -/

/-- The two numbers of a signature as octets. -/
def signatureOctets (curve : Curve) (r s : Nat) : Octets :=
  bigEndian curve.width r ++ bigEndian curve.width s

/-- The two numbers of a signature, each between one and the order. -/
def readSignature (curve : Curve) (signature : Octets) : Option (Nat × Nat) :=
  let r := ofBigEndian (signature.take curve.width)
  let s := ofBigEndian (signature.drop curve.width)
  if signature.length = 2 * curve.width ∧ 0 < r ∧ r < curve.order ∧ 0 < s ∧ s < curve.order then
    some (r, s)
  else none

/-- The `x` coordinate of a point as a residue of the order; zero for infinity. -/
def residueX (curve : Curve) : Point → Nat
  | .infinity => 0
  | .affine x _ => x % curve.order

/-- The signature of a digest; it fails when one of its numbers is zero. -/
def sign (params : Parameters) (key : KeyPair params) (digest : Octets) :
    Except SigningFlaw Octets :=
  let curve := params.curve
  let n := curve.order
  let k := nonce params key.scalar digest
  let r := residueX curve (curve.mul k curve.base)
  let s := Modular.inverse n k * (ofBigEndian digest + r * key.scalar) % n
  if r = 0 ∨ s = 0 then .error .zeroScalar
  else .ok (signatureOctets curve r (if params.lowS ∧ n / 2 < s then n - s else s))

/-- Whether a signature of a digest is one made with the private scalar of the public point. -/
def accepts (params : Parameters) (publicPoint : Point) (digest signature : Octets) : Bool :=
  let curve := params.curve
  let n := curve.order
  match readSignature curve signature with
  | none => false
  | some (r, s) =>
    if params.lowS ∧ n / 2 < s then false
    else
      let w := Modular.inverse n s
      let u₁ := ofBigEndian digest * w % n
      let u₂ := r * w % n
      r == residueX curve (curve.add (curve.mul u₁ curve.base) (curve.mul u₂ publicPoint))

end CcnxPacket.Ecdsa
