import CcnxPacket.Crypto.KeyGeneration
import CcnxPacket.Crypto.Scheme
import CcnxPacket.Validation

/-!
# Signers

A signer is a scheme with a signing key. It signs digests of the scheme's size and describes itself
by the validation algorithm that goes with its signatures.

Messages can be signed by anything that does both, a `SignatureMaker`.
-/

namespace CcnxPacket

/-- What a message is signed with. -/
structure SignatureMaker where
  /-- The function whose digest is signed. -/
  hash : HashFunction
  /-- The description of the signatures, with the public key in it if it is to be embedded. -/
  validationAlgorithm : (embedPublicKey : Bool) → (signingTime : Option UInt64) →
    Except Error ValidationAlgorithm
  /-- Signs a digest. -/
  sign : (digest : Octets) → Except Error Octets

/-- A scheme with a signing key. -/
structure Signer where
  scheme : Scheme
  key : scheme.SigningKey

namespace Signer

/-- The signer of checksums. -/
def checksum : Signer := ⟨.crc32c, ()⟩

/-- The signer with a shared secret, which may not be empty. -/
def hmac (secret : Octets) : Except Error Signer :=
  if h : secret = [] then .error (.invalidKey .emptySecret) else .ok ⟨.hmacSha256, ⟨secret, h⟩⟩

/-- The signer with an RSA key pair. -/
def rsa (key : Rsa.KeyPair) : Signer := ⟨.rsaSha256, key⟩

/-- The signer with a private scalar of secp256k1. -/
def secp256k1 (scalar : Nat) : Signer := ⟨.ecSecp256k1, .ofScalar _ scalar⟩

/-- The signer with a private scalar of secp384r1. -/
def secp384r1 (scalar : Nat) : Signer := ⟨.ecSecp384r1, .ofScalar _ scalar⟩

/-- A signer of a public key suite with a new key. RSA keys have the given bits. -/
def generate (suite : Suite) (bits : Nat) (seed : Octets) : Except Error Signer :=
  match suite with
  | .rsaSha256 => (KeyGeneration.rsa seed bits).map rsa |>.mapError .signingFailure
  | .ecSecp256k1 => .ok (secp256k1 (KeyGeneration.scalar .secp256k1 seed))
  | .ecSecp384r1 => .ok (secp384r1 (KeyGeneration.scalar .secp384r1 seed))
  | suite => .error (.unsupportedSuite suite)

/-- The suite of the signatures. -/
def suite (signer : Signer) : Suite := signer.scheme.suite

/-- The function whose digest is signed. -/
def hash (signer : Signer) : HashFunction := signer.scheme.hash

/-- The identifier of the key that checks the signatures. -/
def keyId? (signer : Signer) : Option Octets := signer.scheme.keyId? signer.key

/-- The public key, in a public key suite. -/
def publicKey? (signer : Signer) : Option Octets := signer.scheme.publicKey? signer.key

/-- Signs a digest. -/
def sign (signer : Signer) (digest : Octets) : Except Error Octets := do
  signer.hash.checkDigest signer.suite digest
  (signer.scheme.sign signer.key digest).mapError .signingFailure

/-- The description of the signatures, with the public key in it if it is to be embedded. -/
def validationAlgorithm (signer : Signer) (embedPublicKey : Bool) (signingTime : Option UInt64) :
    Except Error ValidationAlgorithm :=
  ValidationAlgorithm.make signer.suite signer.keyId?
    (if embedPublicKey then signer.publicKey? else none) signingTime

/-- The signer as what a message is signed with. -/
def maker (signer : Signer) : SignatureMaker :=
  { hash := signer.hash
    validationAlgorithm := signer.validationAlgorithm
    sign := signer.sign }

instance : Coe Signer SignatureMaker := ⟨maker⟩

@[simp] theorem hash_maker (signer : Signer) : signer.maker.hash = signer.hash := rfl

@[simp] theorem validationAlgorithm_maker (signer : Signer) :
    signer.maker.validationAlgorithm = signer.validationAlgorithm := rfl

@[simp] theorem sign_maker (signer : Signer) : signer.maker.sign = signer.sign := rfl

end Signer

end CcnxPacket
