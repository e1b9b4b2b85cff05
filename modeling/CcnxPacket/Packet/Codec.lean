import CcnxPacket.Message.Decode

/-!
# Packet bodies on the wire

A packet body is a message, alone or followed by two sections: the validation algorithm, whose value
is exactly one element, that of the suite, and the validation payload, whose value is the signature.

```text
message | validation algorithm | validation payload
```

The signature covers the message and the validation algorithm. A codec reads and writes bodies with
the formats of its registry, and refuses bodies beyond its size limit.
-/

namespace CcnxPacket

/-- The size limit of a codec unless another one is set. -/
def defaultLimit : Nat := 64 * 1024

/-- The largest packet body there is: three elements with values as long as headers can say. -/
def largestBody : Nat := 3 * (Header.width + Header.maxLength)

/-- How packet bodies are read and written. -/
structure PacketCodec (F : Type := Format) where
  registry : Registry F
  /-- The octets that a body may take. -/
  limit : Nat := defaultLimit
  /-- Whether signed bodies carry the signer's public key. -/
  embedPublicKey : Bool := true
  /-- Whether signed bodies carry the time of signing. -/
  includeSigningTime : Bool := true

/-- A packet body with the octets that its signature covers. -/
structure DecodedBody where
  body : PacketBody
  /-- The number of octets at the start that the signature covers. -/
  protectedSize : Nat
deriving DecidableEq

namespace PacketCodec

variable {F : Type}

/-- Fails for a size beyond the limit. -/
def checkSize (codec : PacketCodec F) (size : Nat) : Except Error Unit :=
  if size ≤ codec.limit then .ok () else .error (.messageTooLarge size codec.limit)

/-! ### Reading -/

section
variable [FieldFormat F]

/-- Reads a message of either kind. -/
def decodeMessage (codec : PacketCodec F) (c : Cursor) : Except Error (Message × Cursor) := do
  let header ← c.peekHeader
  match MessageKind.ofTlvType? header.type with
  | none => throw (.wrongMessageType TlvType.interest header.type c.position)
  | some kind =>
    let message ← Message.decode codec.registry kind c
    return (message.value, message.next)

/-- Reads the element of a suite, which has to fill a section of the given length. -/
def decodeSuite (codec : PacketCodec F) (sectionLength : Nat) (c : Cursor) :
    Except Error (ValidationAlgorithm × Cursor) := do
  let header ← c.peekHeader
  let tid := Tid.validationAlgorithm.element header.type
  if sectionLength < header.elementSize then
    throw (.lengthOverflow tid c.position sectionLength)
  if header.elementSize < sectionLength then
    throw (.invalidFieldLength Tid.validationAlgorithm sectionLength .suiteUnderrun)
  if (Suite.ofTlvType? header.type).isNone then throw (.unknownField tid c.position)
  let format ← codec.registry.lookup tid
  let field ← FieldFormat.decode format tid c
  match field.value.validationAlgorithm? with
  | none => throw (.typeMismatch (FieldFormat.text format) field.value.format.fieldKind)
  | some alg => return (alg, field.next)

/-- Reads the section of the validation algorithm. -/
def decodeAlgorithm (codec : PacketCodec F) (c : Cursor) :
    Except Error (ValidationAlgorithm × Cursor) := do
  let (header, c) ← c.readHeader
  codec.decodeSuite header.length.toNat c

/-- Reads the section of the validation algorithm when there is one. -/
def decodeAlgorithm? (codec : PacketCodec F) (c : Cursor) :
    Except Error (Option ValidationAlgorithm × Cursor) := do
  if c.atEnd then return (none, c)
  let header ← c.peekHeader
  if header.type = TlvType.validationAlgorithm then
    let (alg, c) ← codec.decodeAlgorithm c
    return (some alg, c)
  else if header.type = TlvType.validationPayload then
    throw (.invalidField Tid.validationPayload .payloadWithoutAlgorithm)
  else throw (.unknownField (Tid.packetBody.element header.type) c.position)

/-- The failure of a validation algorithm that no validation payload follows. -/
def missingPayload : Error := .invalidField Tid.validationAlgorithm .algorithmWithoutPayload

/-- Reads the section of the validation payload, the signature. -/
def decodeSignature (codec : PacketCodec F) (c : Cursor) : Except Error (Octets × Cursor) := do
  if c.atEnd then throw missingPayload
  let header ← c.peekHeader
  if header.type ≠ TlvType.validationPayload then throw missingPayload
  let format ← codec.registry.lookup Tid.validationPayload
  let field ← FieldFormat.decode format Tid.validationPayload c
  match field.value.payload? with
  | none => throw (.typeMismatch (FieldFormat.text format) field.value.format.fieldKind)
  | some signature => return (signature, field.next)

/-- Reads what follows a message. -/
def decodeValidation (codec : PacketCodec F) (message : Message) (c : Cursor) :
    Except Error (DecodedBody × Cursor) := do
  let (alg, c) ← codec.decodeAlgorithm? c
  let protectedSize := c.position
  match alg with
  | none => return ({ body := { message }, protectedSize }, c)
  | some alg =>
    let (signature, c) ← codec.decodeSignature c
    return ({ body := { message, validation := some (alg.withSignature signature) },
              protectedSize }, c)

/-- Reads octets that are exactly one packet body. -/
def decode (codec : PacketCodec F) (octets : Octets) : Except Error DecodedBody := do
  codec.checkSize octets.length
  let (message, c) ← codec.decodeMessage (.ofOctets octets)
  let (decoded, c) ← codec.decodeValidation message c
  if !c.atEnd then throw (.trailingBytes c.position c.remaining)
  return decoded

/-- The octets of a packet body that its signature covers. -/
def protectedRegion (codec : PacketCodec F) (octets : Octets) : Except Error Octets := do
  let decoded ← codec.decode octets
  return octets.take decoded.protectedSize

/-! ### Writing -/

/-- Writes the section of the validation algorithm. -/
def encodeAlgorithm (codec : PacketCodec F) (alg : ValidationAlgorithm) : Writer Unit := do
  let format ← codec.registry.lookup alg.suite.tid
  let size ← FieldFormat.encodedSize format (.validationAlgorithm alg)
  writeHeader TlvType.validationAlgorithm size
  let _ ← FieldFormat.encode format (.validationAlgorithm alg) alg.suite.tlvType

/-- Writes the section of the validation payload. -/
def encodeSignature (codec : PacketCodec F) (signature : Octets) : Writer Unit := do
  let format ← codec.registry.lookup Tid.validationPayload
  let _ ← FieldFormat.encode format (.payload signature) TlvType.validationPayload

/-- Writes what follows a message. The algorithm has to carry its signature. -/
def encodeValidation (codec : PacketCodec F) : Option ValidationAlgorithm → Writer Unit
  | none => return
  | some alg =>
    match alg.signature with
    | none => throw missingPayload
    | some signature => do
      codec.encodeAlgorithm alg
      codec.encodeSignature signature

/-- Writes a packet body of any size. -/
def encodeBody (codec : PacketCodec F) (body : PacketBody) : Writer Unit := do
  let _ ← body.message.encode codec.registry
  codec.encodeValidation body.validation

/-- The octets, unless they are beyond the limit. -/
def withinLimit (codec : PacketCodec F) (octets : Octets) : Except Error Octets := do
  codec.checkSize octets.length
  return octets

/-- The octets of a packet body. -/
def encode (codec : PacketCodec F) (body : PacketBody) : Except Error Octets := do
  codec.withinLimit (← (codec.encodeBody body).toOctets)

end

end PacketCodec

end CcnxPacket
