import CcnxPacket.Field
import CcnxPacket.Tlv.Output

/-!
# Writing fields

`Format.encode` appends a field as one element of a given type and returns the octets it took;
`Format.encodedSize` says beforehand how many that will be; `Format.render` shows the field to
people. All three fail on a field that is not of the format's kind.

A hash value takes 32 octets on the wire, its eight octets and 24 zeros, so that it fills the space
of a SHA-256 digest.
-/

namespace CcnxPacket

/-- The smallest hash value on the wire, and the part of it that counts. -/
def hashValueWidth : Nat := 8

/-- The hash value as it is written. -/
def hashValueOctets (value : UInt64) : Octets :=
  bigEndian hashValueWidth value.toNat ++ List.replicate 24 0

/-- The octets of a time on the wire. -/
def timestampWidth : Nat := 8

namespace Name

/-- The octets that segments take as elements. -/
def sizeOfSegments : List Segment → Nat
  | [] => 0
  | segment :: rest => Header.width + segment.value.length + sizeOfSegments rest

/-- The octets that the segments of the name take. -/
def segmentsSize (name : Name) : Nat := sizeOfSegments name.segments

/-- Writes each segment as an element. -/
def writeSegments : List Segment → Writer Unit
  | [] => return
  | segment :: rest => do
    let _ ← writeElement segment.kind.tlvType segment.value
    writeSegments rest

/-- Writes the name as an element and returns its size. -/
def encode (name : Name) (type : UInt16) : Writer Nat := do
  writeHeader type name.segmentsSize
  writeSegments name.segments
  return Header.width + name.segmentsSize

end Name

namespace ValidationAlgorithm

/-- The octets that an optional element takes. -/
def optionSize : Option Octets → Nat
  | none => 0
  | some value => Header.width + value.length

/-- The signing time as it is written. -/
def signingTimeOctets (alg : ValidationAlgorithm) : Option Octets :=
  alg.signingTime.map fun time => bigEndian timestampWidth time.toNat

/-- The octets that key identifier, public key and signing time take. -/
def partsSize (alg : ValidationAlgorithm) : Nat :=
  optionSize alg.keyId + optionSize alg.publicKey + optionSize alg.signingTimeOctets

/-- Writes an element when there is a value for it. -/
def writeOption (type : UInt16) : Option Octets → Writer Unit
  | none => return
  | some value => do
    let _ ← writeElement type value

/-- Writes the suite's element, which holds all parts but the signature, and returns its size. -/
def encode (alg : ValidationAlgorithm) (type : UInt16) : Writer Nat := do
  writeHeader type alg.partsSize
  writeOption TlvType.keyId alg.keyId
  writeOption TlvType.publicKey alg.publicKey
  writeOption TlvType.signingTime alg.signingTimeOctets
  return Header.width + alg.partsSize

/-- The suite, the key identifier, whether there is a public key, and the signing time. -/
def render (alg : ValidationAlgorithm) : String :=
  alg.suite.text
    ++ (alg.keyId.elim "" fun keyId => " keyid=" ++ keyId.hex)
    ++ (if alg.publicKey.isSome then " +publickey" else "")
    ++ (alg.signingTime.elim "" fun time => " sigtime=" ++ toString time.toNat)

end ValidationAlgorithm

namespace Format

/-- Appends the field as an element of the given type and returns the octets it took. -/
def encode (format : Format) (field : Field) (type : UInt16) : Writer Nat :=
  match format, field with
  | .name, .name value => value.encode type
  | .hashValue, .hashValue value => writeElement type (hashValueOctets value)
  | .payload, .payload octets => writeElement type octets
  | .payloadType, .payloadType value => writeElement type [value.octet]
  | .timestamp, .timestamp time => writeElement type (bigEndian timestampWidth time.toNat)
  | .validationAlgorithm, .validationAlgorithm alg => alg.encode type
  | format, field => throw (format.mismatch field)

/-- The octets that `encode` takes for the field. -/
def encodedSize (format : Format) (field : Field) : Except Error Nat :=
  match format, field with
  | .name, .name value => .ok (Header.width + value.segmentsSize)
  | .hashValue, .hashValue _ => .ok (Header.width + 32)
  | .payload, .payload octets => .ok (Header.width + octets.length)
  | .payloadType, .payloadType _ => .ok (Header.width + 1)
  | .timestamp, .timestamp _ => .ok (Header.width + timestampWidth)
  | .validationAlgorithm, .validationAlgorithm alg => .ok (Header.width + alg.partsSize)
  | format, field => .error (format.mismatch field)

/-- The field for people to read. -/
def render (format : Format) (field : Field) : Except Error String :=
  match format, field with
  | .name, .name value => .ok value.uri
  | .hashValue, .hashValue value => .ok (hexNumber 16 value.toNat)
  | .payload, .payload octets => .ok (toString octets.length ++ " bytes: " ++ octets.hex)
  | .payloadType, .payloadType value => .ok value.text
  | .timestamp, .timestamp time => .ok (toString time.toNat ++ " ms")
  | .validationAlgorithm, .validationAlgorithm alg => .ok alg.render
  | format, field => .error (format.mismatch field)

end Format

end CcnxPacket
