import CcnxPacket.Crypto.Ecdsa
import CcnxPacket.Crypto.Key
import CcnxPacket.Crypto.Rsa

/-!
# Signature schemes

A scheme is a crypto suite that the library can sign and check with. It fixes the digest that is
signed, the keys for signing and for checking, how a key is read, and which signatures are accepted.
-/

namespace CcnxPacket

/-- The suites that the library signs and checks with. -/
inductive Scheme where
  | crc32c
  | hmacSha256
  | rsaSha256
  | ecSecp256k1
  | ecSecp384r1
deriving DecidableEq, Repr

/-- The scheme of a suite; VMAC-128 has none. -/
def Suite.scheme? : Suite → Option Scheme
  | crc32c => some .crc32c
  | hmacSha256 => some .hmacSha256
  | vmac128 => none
  | rsaSha256 => some .rsaSha256
  | ecSecp256k1 => some .ecSecp256k1
  | ecSecp384r1 => some .ecSecp384r1

/-- A shared secret, which may not be empty. -/
structure Secret where
  octets : Octets
  nonempty : octets ≠ []

namespace Scheme

/-- The suite of the scheme. -/
def suite : Scheme → Suite
  | crc32c => .crc32c
  | hmacSha256 => .hmacSha256
  | rsaSha256 => .rsaSha256
  | ecSecp256k1 => .ecSecp256k1
  | ecSecp384r1 => .ecSecp384r1

/-- The function whose digest is signed. -/
def hash : Scheme → HashFunction
  | crc32c => .crc32c
  | hmacSha256 | rsaSha256 | ecSecp256k1 => .sha256
  | ecSecp384r1 => .sha384

/-- The keys that check signatures; checksums have none. -/
def VerifyingKey : Scheme → Type
  | crc32c => Empty
  | hmacSha256 => Octets
  | rsaSha256 => Rsa.PublicKey
  | ecSecp256k1 | ecSecp384r1 => Point

/-- The keys that make signatures; checksums need none. -/
def SigningKey : Scheme → Type
  | crc32c => Unit
  | hmacSha256 => Secret
  | rsaSha256 => Rsa.KeyPair
  | ecSecp256k1 => Ecdsa.KeyPair Ecdsa.secp256k1
  | ecSecp384r1 => Ecdsa.KeyPair Ecdsa.secp384r1

/-- The verifying key with the given encoding, if it is one of a public key suite. -/
def readPublicKey {K : Type} (key : Key) (decode? : Octets → Option K) : Except KeyFlaw K :=
  if key.kind = .publicKey then
    match decode? key.octets with
    | some key => .ok key
    | none => .error .badEncoding
  else .error .wrongKind

/-- The verifying key that a key is for the scheme, or why it is none. -/
def readKey (scheme : Scheme) (key : Key) : Except KeyFlaw scheme.VerifyingKey :=
  match scheme with
  | crc32c => .error .keylessSuite
  | hmacSha256 =>
    if key.kind = .symmetric then
      if key.octets.isEmpty then .error .emptySecret else .ok key.octets
    else .error .wrongKind
  | rsaSha256 => readPublicKey key Rsa.PublicKey.decode?
  | ecSecp256k1 => readPublicKey key Curve.secp256k1.decodePoint?
  | ecSecp384r1 => readPublicKey key Curve.secp384r1.decodePoint?

/-- Whether the scheme accepts a signature of a digest under a key. -/
def accepts (scheme : Scheme) (key : scheme.VerifyingKey) (digest signature : Octets) : Bool :=
  match scheme, key with
  | hmacSha256, (secret : Octets) => HashFunction.sha256.mac secret digest == signature
  | rsaSha256, (key : Rsa.PublicKey) => Rsa.accepts key digest signature
  | ecSecp256k1, (point : Point) => Ecdsa.accepts Ecdsa.secp256k1 point digest signature
  | ecSecp384r1, (point : Point) => Ecdsa.accepts Ecdsa.secp384r1 point digest signature

/-- The signature of a digest under a key. -/
def sign (scheme : Scheme) (key : scheme.SigningKey) (digest : Octets) :
    Except SigningFlaw Octets :=
  match scheme, key with
  | crc32c, _ => .ok digest
  | hmacSha256, (secret : Secret) => .ok (HashFunction.sha256.mac secret.octets digest)
  | rsaSha256, (key : Rsa.KeyPair) => Rsa.sign key digest
  | ecSecp256k1, (key : Ecdsa.KeyPair Ecdsa.secp256k1) => Ecdsa.sign Ecdsa.secp256k1 key digest
  | ecSecp384r1, (key : Ecdsa.KeyPair Ecdsa.secp384r1) => Ecdsa.sign Ecdsa.secp384r1 key digest

/-- The encoding of the public key that belongs to a signing key, in a public key suite. -/
def publicKey? (scheme : Scheme) (key : scheme.SigningKey) : Option Octets :=
  match scheme, key with
  | crc32c, _ => none
  | hmacSha256, _ => none
  | rsaSha256, (key : Rsa.KeyPair) => some key.publicKey.encode
  | ecSecp256k1, (key : Ecdsa.KeyPair Ecdsa.secp256k1) => some key.publicKey
  | ecSecp384r1, (key : Ecdsa.KeyPair Ecdsa.secp384r1) => some key.publicKey

/-- The identifier of the key that checks what a signing key signs. -/
def keyId? (scheme : Scheme) (key : scheme.SigningKey) : Option Octets :=
  match scheme, key with
  | crc32c, _ => none
  | hmacSha256, (secret : Secret) => some (keyIdOf secret.octets)
  | rsaSha256, key => (publicKey? rsaSha256 key).map keyIdOf
  | ecSecp256k1, key => (publicKey? ecSecp256k1 key).map keyIdOf
  | ecSecp384r1, key => (publicKey? ecSecp384r1 key).map keyIdOf

end Scheme

end CcnxPacket
