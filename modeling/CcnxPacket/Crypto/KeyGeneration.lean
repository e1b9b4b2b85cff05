import CcnxPacket.Crypto.Ecdsa
import CcnxPacket.Crypto.Rsa

/-!
# Making keys

New keys are functions of a seed, from which a stream of numbers is drawn by hashing. An RSA modulus
is the product of two primes whose two leading bits are set, so that it has exactly the bits asked
for; the public exponent is 65537.
-/

namespace CcnxPacket.KeyGeneration

/-- The first `blocks` digests of a seed with a running number. -/
def stream (seed : Octets) : (blocks : Nat) → Octets
  | 0 => []
  | blocks + 1 => stream seed blocks ++ Sha2.sha256 (bigEndian 4 blocks ++ seed)

/-- A number of the given bits, leading zeros among them, drawn from a seed. -/
def draw (seed : Octets) (bits : Nat) : Nat :=
  ofBigEndian (stream seed (bits / 256 + 1)) % (1 <<< bits)

/-! ### Scalars -/

/-- A scalar between one and the order of the curve. -/
def scalar (curve : Curve) (seed : Octets) : Nat :=
  draw seed (8 * curve.width + 64) % (curve.order - 1) + 1

/-! ### RSA -/

/-- The public exponent of new keys. -/
def publicExponent : Nat := 65537

/-- Whether keys of so few bits have enough primes to choose from. A prime starts with two ones and
has half the bits, and the primes below `n` are about `n / (ln n - 1)`. -/
def hasTooFewPrimes (bits : Nat) : Bool := bits < 12

/-- The first of the next `tries` odd numbers that is a prime and does not exceed by one a multiple
of the public exponent. -/
def nextPrime : (tries n : Nat) → Option Nat
  | 0, _ => none
  | tries + 1, n =>
    if Modular.isProbablePrime n && n % publicExponent != 1 then some n
    else nextPrime tries (n + 2)

/-- A prime of the given bits, the two leading ones being set. -/
def prime (seed : Octets) (bits : Nat) : Option Nat :=
  let top := 3 <<< (bits - 2)
  nextPrime (64 * bits) (top + (draw seed (bits - 2) ||| 1)) >>= fun p =>
    if p < 1 <<< bits then some p else none

/-- The key pair of two different primes. -/
def ofPrimes (p q : Nat) : Option Rsa.KeyPair :=
  if p = q then none
  else
    some
      { publicKey := { modulus := p * q, exponent := publicExponent }
        privateExponent := Modular.inverse ((p - 1) * (q - 1)) publicExponent }

/-- A key pair from the first of the next `tries` seeds that yields two different primes. -/
def rsaFrom (seed : Octets) (bits : Nat) : (tries : Nat) → Option Rsa.KeyPair
  | 0 => none
  | tries + 1 =>
    let first := bits / 2
    let pair : Option Rsa.KeyPair := do
      let p ← prime (UInt8.ofNat tries :: 0 :: seed) first
      let q ← prime (UInt8.ofNat tries :: 1 :: seed) (bits - first)
      ofPrimes p q
    pair <|> rsaFrom seed bits tries

/-- A key pair whose modulus has the given bits. -/
def rsa (seed : Octets) (bits : Nat) : Except SigningFlaw Rsa.KeyPair :=
  if hasTooFewPrimes bits then .error .tooFewPrimes
  else
    match rsaFrom seed bits 128 with
    | some key => .ok key
    | none => .error .tooFewPrimes

end CcnxPacket.KeyGeneration
