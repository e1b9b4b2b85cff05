import CcnxPacket.Crypto.Der
import CcnxPacket.Crypto.Modular
import CcnxPacket.Hash

/-!
# RSA signatures

A signature is a power of the padded digest. Padding follows PKCS #1 v1.5: a zero, a one, octets
`FF`, a zero, the description of SHA-256 and the digest. Public keys are encoded as a subject public
key info, the algorithm's identifier and the key as a string of bits.
-/

namespace CcnxPacket.Rsa

/-- A modulus and a public exponent. -/
structure PublicKey where
  modulus : Nat
  exponent : Nat
deriving DecidableEq, Repr

/-- A public key with the private exponent. -/
structure KeyPair where
  publicKey : PublicKey
  privateExponent : Nat
deriving DecidableEq, Repr

/-- The bits of a number, without leading zeros. -/
def bitLength (n : Nat) : Nat := if n = 0 then 0 else n.log2 + 1

/-- The octets of the modulus, which are also those of a signature. -/
def PublicKey.size (key : PublicKey) : Nat := (bitLength key.modulus + 7) / 8

/-- Whether modulus and exponent are in the ranges that are accepted. -/
def PublicKey.isAcceptable (key : PublicKey) : Bool :=
  key.modulus % 2 == 1 && bitLength key.modulus ≤ 4096
    && key.exponent % 2 == 1 && 2 ≤ key.exponent && key.exponent ≤ 0x1FFFFFFFF
    && key.exponent < key.modulus

/-! ### Encodings of public keys -/

/-- The algorithm's identifier: `rsaEncryption` with the parameters `NULL`. -/
def algorithmIdentifier : Octets :=
  Der.encode Der.sequenceTag
    [0x06, 0x09, 0x2A, 0x86, 0x48, 0x86, 0xF7, 0x0D, 0x01, 0x01, 0x01, 0x05, 0x00]

/-- The subject public key info of a key. -/
def PublicKey.encode (key : PublicKey) : Octets :=
  let numbers := Der.encodeInteger key.modulus ++ Der.encodeInteger key.exponent
  Der.encode Der.sequenceTag
    (algorithmIdentifier ++ Der.encode Der.bitStringTag (0 :: Der.encode Der.sequenceTag numbers))

/-- The key with the given numbers: octets that hold a modulus and an exponent and nothing else. -/
def readNumbers? (octets : Octets) : Option PublicKey :=
  match Der.readInteger? octets with
  | none => none
  | some (modulus, rest) =>
    match Der.readInteger? rest with
    | some (exponent, []) => some { modulus, exponent }
    | _ => none

/-- The acceptable key with the given subject public key info. -/
def PublicKey.decode? (octets : Octets) : Option PublicKey := do
  let info ← Der.readOnly? Der.sequenceTag octets
  let bits ← algorithmIdentifier.isPrefixOf? info
  match ← Der.readOnly? Der.bitStringTag bits with
  | 0 :: sequence =>
    let numbers ← Der.readOnly? Der.sequenceTag sequence
    let key ← readNumbers? numbers
    if key.isAcceptable then some key else none
  | _ => none

/-! ### Signatures -/

/-- The description of SHA-256 in front of a digest. -/
def digestInfo : Octets :=
  [0x30, 0x31, 0x30, 0x0D, 0x06, 0x09, 0x60, 0x86, 0x48, 0x01, 0x65, 0x03, 0x04, 0x02, 0x01,
    0x05, 0x00, 0x04, 0x20]

/-- The padded digest of `size` octets; at least eight octets of padding have to fit. -/
def pad? (size : Nat) (digest : Octets) : Option Octets :=
  let info := digestInfo ++ digest
  if size < info.length + 11 then none
  else some (0 :: 1 :: List.replicate (size - info.length - 3) 0xFF ++ 0 :: info)

/-- The signature of a digest; it fails when the modulus has no room for the padding. -/
def sign (key : KeyPair) (digest : Octets) : Except SigningFlaw Octets :=
  match pad? key.publicKey.size digest with
  | none => .error .messageTooLong
  | some padded =>
    let signature :=
      Modular.power key.publicKey.modulus (ofBigEndian padded) key.privateExponent
    .ok (bigEndian key.publicKey.size signature)

/-- Whether a signature of a digest is one made with the private exponent of the key. -/
def accepts (key : PublicKey) (digest signature : Octets) : Bool :=
  let number := ofBigEndian signature
  if signature.length = key.size ∧ number < key.modulus then
    let padded := bigEndian key.size (Modular.power key.modulus number key.exponent)
    pad? key.size digest == some padded
  else false

end CcnxPacket.Rsa
