import CcnxPacket.Field.Encode
import CcnxPacket.Tlv.Container

/-!
# Reading fields

`Format.decode` reads one element, header included. It does not look at the element's type, except
for a validation algorithm, whose type is its suite. Names and validation algorithms are containers:
their values are walked element by element.
-/

namespace CcnxPacket

/-- What a decoder makes of an element: its value, the octets of the element, and the cursor after
it. -/
structure Decoded (α : Type) where
  value : α
  consumed : Nat
  next : Cursor

/-- The decoded element with its value changed. -/
def Decoded.map {α β : Type} (f : α → β) (decoded : Decoded α) : Decoded β :=
  { value := f decoded.value, consumed := decoded.consumed, next := decoded.next }

namespace Name

/-- Reads one segment and puts it in front of those already read. -/
def visitSegment (segments : List Segment) (header : Header) (c : Cursor) :
    Except Error (List Segment × Cursor) :=
  match SegmentKind.ofTlvType? header.type with
  | none => .error (.unknownField (Tid.nameSegment.element header.type) c.position)
  | some kind => do
    let (value, c) ← c.readValue header
    return (⟨kind, value⟩ :: segments, c)

/-- Reads a name. -/
def decode (c : Cursor) : Except Error (Decoded Name) := do
  let (header, c) ← c.readHeader
  let (segments, c) ← elements Tid.nameSegment header.length.toNat visitSegment [] c
  return { value := ⟨segments.reverse⟩, consumed := header.elementSize, next := c }

end Name

namespace ValidationAlgorithm

/-- The parts of a validation algorithm read so far. -/
structure Parts where
  keyId : Option Octets := none
  publicKey : Option Octets := none
  signingTime : Option UInt64 := none
deriving DecidableEq

/-- Reads one part. Its value is read before its type is looked at. -/
def visitPart (tid : Tid) (parts : Parts) (header : Header) (c : Cursor) :
    Except Error (Parts × Cursor) := do
  let (value, next) ← c.readValue header
  let part := tid.element header.type
  if header.type = TlvType.keyId then
    if parts.keyId.isSome then throw (.duplicateField part c.position)
    return ({ parts with keyId := some value }, next)
  else if header.type = TlvType.publicKey then
    if parts.publicKey.isSome then throw (.duplicateField part c.position)
    return ({ parts with publicKey := some value }, next)
  else if header.type = TlvType.signingTime then
    if parts.signingTime.isSome then throw (.duplicateField part c.position)
    if value.length ≠ timestampWidth then
      throw (.invalidFieldLength part value.length .timestampNotEight)
    return ({ parts with signingTime := some (UInt64.ofNat (ofBigEndian value)) }, next)
  else throw (.unknownField part c.position)

/-- Reads the element of a suite. `tid` is the element's own identifier. -/
def decode (tid : Tid) (c : Cursor) : Except Error (Decoded ValidationAlgorithm) := do
  let (header, c) ← c.readHeader
  match Suite.ofTlvType? header.type with
  | none => throw (.unknownSuite header.type)
  | some suite =>
    let (parts, c) ← elements tid header.length.toNat (visitPart tid) {} c
    let alg ← make suite parts.keyId parts.publicKey parts.signingTime
    return { value := alg, consumed := header.elementSize, next := c }

end ValidationAlgorithm

/-- Reads a hash value: the first eight octets count and the others are padding. -/
def decodeHashValue (tid : Tid) (c : Cursor) : Except Error (Decoded UInt64) := do
  let (header, c) ← c.readHeader
  let length := header.length.toNat
  if length < hashValueWidth then throw (.invalidFieldLength tid length .hashTooShort)
  let (value, c) ← c.readWord64
  let c ← c.skip (length - hashValueWidth)
  return { value, consumed := header.elementSize, next := c }

/-- Reads a payload. -/
def decodePayload (c : Cursor) : Except Error (Decoded Octets) := do
  let (header, c) ← c.readHeader
  let (value, c) ← c.read header.length.toNat
  return { value, consumed := header.elementSize, next := c }

/-- Reads a payload type. -/
def decodePayloadType (tid : Tid) (c : Cursor) : Except Error (Decoded PayloadType) := do
  let (header, c) ← c.readHeader
  if header.length ≠ 1 then
    throw (.invalidFieldLength tid header.length.toNat .payloadTypeNotOne)
  let (octet, c) ← c.readOctet
  match PayloadType.ofOctet? octet with
  | none => throw (.invalidField tid .unknownPayloadType)
  | some value => return { value, consumed := header.elementSize, next := c }

/-- Reads a time. -/
def decodeTimestamp (tid : Tid) (c : Cursor) : Except Error (Decoded UInt64) := do
  let (header, c) ← c.readHeader
  if header.length.toNat ≠ timestampWidth then
    throw (.invalidFieldLength tid header.length.toNat .timestampNotEight)
  let (value, c) ← c.readWord64
  return { value, consumed := header.elementSize, next := c }

/-- Reads a field of the format's kind. `tid` is the element's identifier, named in errors. -/
def Format.decode (format : Format) (tid : Tid) (c : Cursor) : Except Error (Decoded Field) :=
  match format with
  | .name => (Name.decode c).map (·.map .name)
  | .hashValue => (decodeHashValue tid c).map (·.map .hashValue)
  | .payload => (decodePayload c).map (·.map .payload)
  | .payloadType => (decodePayloadType tid c).map (·.map .payloadType)
  | .timestamp => (decodeTimestamp tid c).map (·.map .timestamp)
  | .validationAlgorithm => (ValidationAlgorithm.decode tid c).map (·.map .validationAlgorithm)

end CcnxPacket
