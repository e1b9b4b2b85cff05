import CcnxPacket.Error

/-!
# Validation metadata

A validation algorithm says how a packet body is protected: by which suite, with which key and when.
What it may carry depends on the kind of its suite:

| suite kind | key identifier | public key |
|---|---|---|
| checksum | never | never |
| symmetric | optional | never |
| public key | required | optional |

The signature joins the algorithm once it is made or read.
-/

namespace CcnxPacket

/-- How a packet body is protected. -/
structure ValidationAlgorithm where
  suite : Suite
  /-- The identifier of the validating key. -/
  keyId : Option Octets
  /-- The validating key itself, encoded as its suite says. -/
  publicKey : Option Octets
  /-- Milliseconds since the start of 1970 at which the body was signed. -/
  signingTime : Option UInt64
  /-- The signature or checksum over the protected octets. -/
  signature : Option Octets
deriving DecidableEq

namespace ValidationAlgorithm

/-- The element that may not stand where it does, or is missing, for a suite of the given kind. -/
def flaw? (kind : SuiteKind) (keyId publicKey : Option Octets) : Option FieldFlaw :=
  match kind with
  | .checksum =>
    if keyId.isSome then some .keyIdNotAllowed
    else if publicKey.isSome then some .publicKeyNotAllowed
    else none
  | .symmetric => if publicKey.isSome then some .publicKeyNotAllowed else none
  | .publicKey => if keyId.isNone then some .keyIdRequired else none

/-- The unsigned algorithm with the given parts, when its suite may carry them. -/
def make (suite : Suite) (keyId publicKey : Option Octets) (signingTime : Option UInt64) :
    Except Error ValidationAlgorithm :=
  match flaw? suite.kind keyId publicKey with
  | some flaw => .error (.invalidField suite.tid flaw)
  | none => .ok { suite, keyId, publicKey, signingTime, signature := none }

/-- A checksum without a signing time. -/
def checksum : ValidationAlgorithm :=
  { suite := .crc32c, keyId := none, publicKey := none, signingTime := none, signature := none }

/-- The algorithm with the given signature. -/
def withSignature (alg : ValidationAlgorithm) (signature : Octets) : ValidationAlgorithm :=
  { alg with signature := some signature }

/-- The algorithm without a signature: what its own section on the wire says. -/
def unsigned (alg : ValidationAlgorithm) : ValidationAlgorithm := { alg with signature := none }

end ValidationAlgorithm

end CcnxPacket
