import CcnxPacket.Tlv.Assigned

/-!
# Crypto suites

The six ways to validate a packet body. The suite of a validation section is the type of the one
element in it, and the kind of a suite says what that element may carry.
-/

namespace CcnxPacket

/-- The ways to validate a packet body. -/
inductive Suite where
  | crc32c
  | hmacSha256
  | vmac128
  | rsaSha256
  | ecSecp256k1
  | ecSecp384r1
deriving DecidableEq, Repr

/-- What a suite needs to check a signature: nothing, a shared secret, or a public key. -/
inductive SuiteKind where
  | checksum
  | symmetric
  | publicKey
deriving DecidableEq, Repr

namespace Suite

/-- Every suite, in the order of the element types. -/
def all : List Suite := [crc32c, hmacSha256, vmac128, rsaSha256, ecSecp256k1, ecSecp384r1]

/-- The element type of the suite inside a validation algorithm section. -/
def tlvType : Suite → UInt16
  | crc32c => 2
  | hmacSha256 => 4
  | vmac128 => 5
  | rsaSha256 => 6
  | ecSecp256k1 => 7
  | ecSecp384r1 => 8

/-- The suite with the given element type. -/
def ofTlvType? (type : UInt16) : Option Suite := all.find? fun suite => suite.tlvType == type

/-- The identifier `3.3.n` of the suite's element. -/
def tid (suite : Suite) : Tid := Tid.validationAlgorithm.element suite.tlvType

/-- What the suite needs to check a signature. -/
def kind : Suite → SuiteKind
  | crc32c => .checksum
  | hmacSha256 | vmac128 => .symmetric
  | rsaSha256 | ecSecp256k1 | ecSecp384r1 => .publicKey

/-- The registered name of the suite. -/
def text : Suite → String
  | crc32c => "CRC32C"
  | hmacSha256 => "HMAC-SHA256"
  | vmac128 => "VMAC-128"
  | rsaSha256 => "RSA-SHA256"
  | ecSecp256k1 => "EC-SECP-256K1"
  | ecSecp384r1 => "EC-SECP-384R1"

end Suite

end CcnxPacket
