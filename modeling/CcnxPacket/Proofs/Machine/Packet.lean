import CcnxPacket.Packet.Signed
import CcnxPacket.Proofs.Machine.Message
import CcnxPacket.Proofs.Spelling.Packet

/-!
# Reading packet bodies on the machine

A packet body is read section by section, and what its signature covers is taken from the octets up
to the offset reached before the signature. That offset lies within the octets, since it is a place
that the reader has been at.
-/

namespace CcnxPacket

namespace Machine

/-- Reads a message of either kind, with which a packet body begins. -/
def decodeEither (codec : PacketCodec) (r : Reader) : Run (Message × Reader) := do
  let (header, r) ← Moving.peekHeader.applyTo r
  match MessageKind.ofTlvType? header.type with
  | none => throw (.wrongMessageType TlvType.interest header.type 0)
  | some kind =>
    let message ← decodeMessage codec.registry kind r
    return (message.value, message.next)

/-- Reads the element of a suite, which has to fill a section of the given length. -/
def decodeSuite (codec : PacketCodec) (sectionLength : Nat) (r : Reader) :
    Run (ValidationAlgorithm × Reader) := do
  let offset := r.position
  let (header, r) ← Moving.peekHeader.applyTo r
  let tid := Tid.validationAlgorithm.element header.type
  let stop ← add header.length.toNat Header.width
  if sectionLength < stop then throw (.lengthOverflow tid offset sectionLength)
  if stop < sectionLength then
    throw (.invalidFieldLength Tid.validationAlgorithm sectionLength .suiteUnderrun)
  if (Suite.ofTlvType? header.type).isNone then throw (.unknownField tid offset)
  let format ← codec.registry.lookup tid
  let field ← decodeField format tid r
  match field.value.validationAlgorithm? with
  | none => throw (.typeMismatch format.text field.value.format.fieldKind)
  | some alg => return (alg, field.next)

/-- Reads the section of the validation algorithm. -/
def decodeAlgorithmSection (codec : PacketCodec) (r : Reader) :
    Run (ValidationAlgorithm × Reader) := do
  let (header, r) ← Moving.readHeader.applyTo r
  decodeSuite codec header.length.toNat r

/-- Reads the section of the validation algorithm when there is one. -/
def decodeAlgorithmSection? (codec : PacketCodec) (r : Reader) :
    Run (Option ValidationAlgorithm × Reader) := do
  let remaining ← r.remaining
  if 0 < remaining then
    let offset := r.position
    let (header, r) ← Moving.peekHeader.applyTo r
    if header.type = TlvType.validationAlgorithm then
      let (alg, r) ← decodeAlgorithmSection codec r
      return (some alg, r)
    else if header.type = TlvType.validationPayload then
      throw (.invalidField Tid.validationPayload .payloadWithoutAlgorithm)
    else throw (.unknownField (Tid.packetBody.element header.type) offset)
  else return (none, r)

/-- Reads the section of the validation payload, the signature. -/
def decodeSignature (codec : PacketCodec) (r : Reader) : Run (Octets × Reader) := do
  let remaining ← r.remaining
  if remaining = 0 then throw PacketCodec.missingPayload
  let (header, r) ← Moving.peekHeader.applyTo r
  if header.type ≠ TlvType.validationPayload then throw PacketCodec.missingPayload
  let format ← codec.registry.lookup Tid.validationPayload
  let field ← decodeField format Tid.validationPayload r
  match field.value.payload? with
  | none => throw (.typeMismatch format.text field.value.format.fieldKind)
  | some signature => return (signature, field.next)

/-- Reads what follows a message. -/
def decodeValidation (codec : PacketCodec) (message : Message) (r : Reader) :
    Run (DecodedBody × Reader) := do
  let (alg, r) ← decodeAlgorithmSection? codec r
  let protectedSize := r.position
  match alg with
  | none => return ({ body := { message }, protectedSize }, r)
  | some alg =>
    let (signature, r) ← decodeSignature codec r
    return ({ body := { message, validation := some (alg.withSignature signature) },
              protectedSize }, r)

/-- Reads octets that are exactly one packet body. -/
def decode (codec : PacketCodec) (octets : Octets) : Run DecodedBody := do
  codec.checkSize octets.length
  let (message, r) ← decodeEither codec (.ofOctets octets)
  let (decoded, r) ← decodeValidation codec message r
  requireEnd r
  return decoded

/-- The octets of a packet body that its signature covers. -/
def protectedRegion (codec : PacketCodec) (octets : Octets) : Run Octets := do
  let decoded ← decode codec octets
  let covered ← slice octets 0 decoded.protectedSize
  return covered

/-- Whether octets are a packet body with a signature that the verifier accepts. -/
def verify (codec : PacketCodec) (octets : Octets) (verifier : Verifier) : Run Bool := do
  let decoded ← decode codec octets
  match decoded.body.validation with
  | none => return false
  | some alg =>
    match alg.signature with
    | none => return false
    | some signature =>
      let covered ← slice octets 0 decoded.protectedSize
      verifier.verify alg.keyId (verifier.hash.digest covered) alg.suite signature

variable {codec : PacketCodec} {octets : Octets} {c : Cursor}

/-- The machine reads the message of a body as it is read. -/
theorem runsAs_decodeEither (hfits : octets.length < UInt64.size) :
    RunsAs Cursor.withReader (decodeEither codec (.ofOctets octets))
      (codec.decodeMessage (.ofOctets octets)) := by
  apply (Moving.follows_peekHeader (Cursor.fits_ofOctets hfits)).runsAs_answer.bind
  intro header _
  dsimp only [Cursor.withReader]
  cases MessageKind.ofTlvType? header.type with
  | none => exact .throw _
  | some kind =>
      apply (runsAs_decodeMessage (Cursor.fits_ofOctets hfits)).bind
      intro message _
      exact .pure rfl

/-- The machine reads a suite as it is read. -/
theorem runsAs_decodeSuite (hfits : c.Fits) (sectionLength : Nat) :
    RunsAs Cursor.withReader (decodeSuite codec sectionLength c.toReader)
      (codec.decodeSuite sectionLength c) := by
  apply (Moving.follows_peekHeader hfits).runsAs_answer.bind
  intro header _
  apply RunsAs.step (add_length_width header)
  refine .ite (fun _ => .throw _) fun _ => .ite (fun _ => .throw _) fun _ =>
    .ite (fun _ => .throw _) fun _ => ?_
  apply (RunsAs.lift _).bind
  intro format _
  apply (runsAs_decodeField hfits format _).bind
  intro field _
  simp only [Decoded.withReader]
  cases field.value.validationAlgorithm? with
  | none => exact .throw _
  | some alg => exact .pure rfl

/-- The machine reads an algorithm section as it is read. -/
theorem runsAs_decodeAlgorithmSection (hfits : c.Fits) :
    RunsAs Cursor.withReader (decodeAlgorithmSection codec c.toReader)
      (codec.decodeAlgorithm c) := by
  apply (Moving.follows_readHeader hfits).runsAs.bind
  intro read hread
  exact runsAs_decodeSuite (hfits.of_readHeader hread) _

/-- Nothing is to be read when the cursor is at the end. -/
theorem remaining_eq_zero_iff : c.remaining = 0 ↔ c.atEnd = true := by
  rw [Cursor.atEnd_iff, Cursor.remaining, List.length_eq_zero_iff]

/-- The machine finds out as is found out whether there is an algorithm section. -/
theorem runsAs_decodeAlgorithmSection? (hfits : c.Fits) :
    RunsAs Cursor.withReader (decodeAlgorithmSection? codec c.toReader)
      (codec.decodeAlgorithm? c) := by
  apply RunsAs.step (Reader.remaining_toReader c)
  unfold PacketCodec.decodeAlgorithm?
  by_cases hend : c.remaining = 0
  · rw [if_pos (remaining_eq_zero_iff.1 hend), if_neg (Nat.not_lt.2 (Nat.le_of_eq hend))]
    exact .pure rfl
  · rw [if_neg (mt remaining_eq_zero_iff.2 hend), if_pos (Nat.pos_of_ne_zero hend)]
    apply (Moving.follows_peekHeader hfits).runsAs_answer.bind
    intro header _
    refine .ite (fun _ => ?_) fun _ => .ite (fun _ => .throw _) fun _ => .throw _
    apply (runsAs_decodeAlgorithmSection hfits).bind
    intro alg _
    exact .pure rfl

/-- The machine reads a signature section as it is read. -/
theorem runsAs_decodeSignature (hfits : c.Fits) :
    RunsAs Cursor.withReader (decodeSignature codec c.toReader) (codec.decodeSignature c) := by
  apply RunsAs.step (Reader.remaining_toReader c)
  unfold PacketCodec.decodeSignature
  by_cases hend : c.remaining = 0
  · rw [if_pos (remaining_eq_zero_iff.1 hend), if_pos hend]
    exact .throw _
  · rw [if_neg (mt remaining_eq_zero_iff.2 hend), if_neg hend]
    apply (Moving.follows_peekHeader hfits).runsAs_answer.bind
    intro header _
    refine .ite (fun _ => .throw _) fun _ => ?_
    apply (RunsAs.lift _).bind
    intro format _
    apply (runsAs_decodeField hfits format _).bind
    intro field _
    simp only [Decoded.withReader]
    cases field.value.payload? with
    | none => exact .throw _
    | some signature => exact .pure rfl

/-- The machine reads what stands behind a message as it is read. -/
theorem runsAs_decodeValidation (hfits : c.Fits) (message : Message) :
    RunsAs Cursor.withReader (decodeValidation codec message c.toReader)
      (codec.decodeValidation message c) := by
  apply (runsAs_decodeAlgorithmSection? hfits).bind
  intro read hread
  obtain ⟨alg, next⟩ := read
  cases alg with
  | none => exact .pure rfl
  | some alg =>
      obtain ⟨part, -, -, rfl⟩ := PacketCodec.decodeAlgorithm?_eq_some_iff.1 hread
      apply (runsAs_decodeSignature (hfits.advance part.size)).bind
      intro signature _
      exact .pure rfl

/-- The machine decodes a body as it is decoded. -/
theorem runsAs_decode (hfits : octets.length < UInt64.size) :
    RunsAs id (decode codec octets) (codec.decode octets) := by
  apply (RunsAs.lift _).bind
  intro _ _
  apply (runsAs_decodeEither hfits).bind
  intro read hread
  obtain ⟨message, next⟩ := read
  obtain ⟨e, -, -, rfl⟩ := PacketCodec.decodeMessage_eq_ok_iff.1 hread
  apply (runsAs_decodeValidation ((Cursor.fits_ofOctets hfits).advance e.size) message).bind
  intro decoded _
  exact runsAs_requireEnd (.pure rfl)

/-- What the signature covers lies within the octets. -/
theorem protectedSize_le {decoded : DecodedBody} (h : codec.decode octets = .ok decoded) :
    decoded.protectedSize ≤ octets.length := by
  obtain ⟨-, hspells⟩ := PacketCodec.decode_eq_ok_iff_spells.1 h
  cases hspells with
  | unsigned => exact Nat.le_of_eq (Element.length_octets _).symm
  | signed =>
      simp only [List.length_append, Element.length_octets]
      omega

/-- The protected region of a decoded body is a slice of its octets. -/
theorem slice_protected {decoded : DecodedBody} (h : codec.decode octets = .ok decoded) :
    slice octets 0 decoded.protectedSize = .ok (octets.take decoded.protectedSize) :=
  slice_eq (Nat.zero_le _) (protectedSize_le h)

/-- The machine finds the protected region as it is found. -/
theorem runsAs_protectedRegion (hfits : octets.length < UInt64.size) :
    RunsAs id (protectedRegion codec octets) (codec.protectedRegion octets) := by
  apply (runsAs_decode hfits).bind
  intro decoded hdecode
  exact .last (slice_protected hdecode)

/-- The machine verifies a body as it is verified. -/
theorem runsAs_verify (hfits : octets.length < UInt64.size) (verifier : Verifier) :
    RunsAs id (verify codec octets verifier) (codec.verify octets verifier) := by
  apply (runsAs_decode hfits).bind
  intro decoded hdecode
  unfold PacketCodec.verifyDecoded
  dsimp only [id]
  cases hvalidation : decoded.body.validation with
  | none => exact .pure rfl
  | some alg =>
      dsimp only
      cases alg.signature with
      | none => exact .pure rfl
      | some signature => exact .step (slice_protected hdecode) (.lift _)

end Machine

end CcnxPacket
