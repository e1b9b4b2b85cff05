import CcnxPacket.Proofs.Machine.Encode
import CcnxPacket.Proofs.Machine.Packet
import CcnxPacket.Proofs.Machine.Signer

/-!
# Packet bodies on the machine

Packet bodies are written on the machine section by section. With the readers and the writers of the
modules before, everything that a codec does runs without a fault, for all octets that the machine
can count, all values that it can count on the wire and whatever the registry holds: no number
leaves the machine's range, no octets are taken from where there are none, what a container wrote is
what it announced, and the counters of the loops move as they have to.
-/

namespace CcnxPacket

/-- The octets that the section of the algorithm takes. -/
def ValidationAlgorithm.sectionSize (alg : ValidationAlgorithm) : Nat :=
  Header.width + (Field.validationAlgorithm alg).wireSize

/-- The octets that the validation takes. -/
def ValidationAlgorithm.wireSize (alg : ValidationAlgorithm) : Nat :=
  alg.sectionSize + (Field.payload (alg.signature.getD [])).wireSize

/-- The octets that the packet body takes. -/
def PacketBody.wireSize (body : PacketBody) : Nat :=
  body.message.wireSize + body.validation.elim 0 ValidationAlgorithm.wireSize

namespace Machine

open Writing (compute Mirrors)
open Writer (Grows)

/-- Writes the section of the validation algorithm. -/
def encodeAlgorithmSection (codec : PacketCodec) (alg : ValidationAlgorithm) : Writing Unit := do
  let format ← codec.registry.lookup alg.suite.tid
  let inner ← compute (fieldSize format (.validationAlgorithm alg))
  writeHeader TlvType.validationAlgorithm inner
  let _ ← encodeField format (.validationAlgorithm alg) alg.suite.tlvType
  let _ ← add Header.width inner
  return

/-- Writes the section of the validation payload. -/
def encodeSignature (codec : PacketCodec) (signature : Octets) : Writing Unit := do
  let format ← codec.registry.lookup Tid.validationPayload
  let _ ← encodeField format (.payload signature) TlvType.validationPayload

/-- Writes what follows a message. The algorithm has to carry its signature. -/
def encodeValidation (codec : PacketCodec) : Option ValidationAlgorithm → Writing Unit
  | none => return
  | some alg =>
    match alg.signature with
    | none => throw PacketCodec.missingPayload
    | some signature => do
      encodeAlgorithmSection codec alg
      encodeSignature codec signature

/-- Writes a packet body of any size. -/
def encodeBody (codec : PacketCodec) (body : PacketBody) : Writing Unit := do
  let _ ← encodeMessage codec.registry body.message
  encodeValidation codec body.validation

/-- The octets of a packet body. -/
def encode (codec : PacketCodec) (body : PacketBody) : Run Octets := do
  let octets ← (encodeBody codec body).toOctets
  codec.withinLimit octets

/-- Writes a message with its validation, the signature being made from what is already written. -/
def encodeSigning (codec : PacketCodec) (message : Message) (alg : ValidationAlgorithm)
    (signer : Signer) : Writing Unit := do
  let _ ← encodeMessage codec.registry message
  encodeAlgorithmSection codec alg
  let out ← get
  let signature ← signer.sign (signer.hash.digest out.octets)
  encodeSignature codec signature

/-- The octets of a message signed at the given time. -/
def encodeSigned (codec : PacketCodec) (now : UInt64) (message : Message) (signer : Signer) :
    Run Octets := do
  let signingTime := if codec.includeSigningTime then some now else none
  let alg ← signer.validationAlgorithm codec.embedPublicKey signingTime
  let octets ← (encodeSigning codec message alg signer).toOctets
  codec.withinLimit octets

variable {codec : PacketCodec} {alg : ValidationAlgorithm}

/-! ### Sections -/

/-- The element of a message has the size that the message says. -/
theorem size_of_message {registry : Registry} {message : Message} {e : Element}
    (h : message.element registry = .ok e) : e.size = message.wireSize := by
  obtain ⟨parts, hparts, hmake⟩ := Result.bind_eq_ok_iff.1 h
  obtain ⟨-, hvalue⟩ := Element.make_eq_ok_iff.1 hmake
  have hsize : fieldsSize registry message.tid message.fields = .ok (rawConcat parts).length := by
    rw [fieldsSize_eq, hparts]
    rfl
  rw [Element.size_of_value hvalue, fieldsSize_eq_ok hsize]
  rfl

theorem grows_encodeMessage (registry : Registry) (message : Message) :
    Grows message.wireSize (message.encode registry) :=
  .of_emits (message.emits_encode registry) fun _ he => Nat.le_of_eq (size_of_message he)

/-- An element is never larger than a header can say. -/
theorem grows_of_emits {α : Type} {writer : Writer α} {element : Except Error Element}
    {answer : Element → α} (h : Writer.Emits writer element answer) :
    Grows (Header.width + Header.maxLength) writer :=
  .of_emits h fun e _ => Nat.add_le_add_left e.fits _

/-- The machine writes an algorithm section as it is written. -/
theorem mirrors_encodeAlgorithmSection (codec : PacketCodec) (alg : ValidationAlgorithm) :
    Mirrors alg.sectionSize (encodeAlgorithmSection codec alg) (codec.encodeAlgorithm alg) := by
  apply Mirrors.of_room
  intro hroom
  have hfits : (Field.validationAlgorithm alg).wireSize < UInt64.size :=
    Nat.lt_of_le_of_lt (Nat.le_add_left _ _) hroom
  apply Mirrors.lift_bind
  intro format _
  apply Mirrors.compute_bind (runsAs_fieldSize hfits)
  intro size hsize
  obtain rfl := Format.encodedSize_eq_ok hsize
  apply (mirrors_writeHeader _ _).bind (grows_writeHeader _ _) _ (Nat.le_add_right _ _)
    (Nat.le_refl _)
  intro _
  apply (mirrors_encodeField _ _ _).bind_end
  intro _ _ out
  rw [id, add_eq hroom]
  rfl

/-- The element of an algorithm section has the size that the algorithm says. -/
theorem size_of_algorithmSection {e : Element} (h : codec.algorithmSection alg = .ok e) :
    e.size = alg.sectionSize := by
  obtain ⟨format, -, h⟩ := Result.bind_eq_ok_iff.1 h
  obtain ⟨value, hvalue, hmake⟩ := Result.bind_eq_ok_iff.1 h
  obtain ⟨-, hraw⟩ := Element.make_eq_ok_iff.1 hmake
  rw [Element.size_of_value hraw, length_rawElement, Format.size_of_valueOf hvalue,
    ValidationAlgorithm.sectionSize]

theorem grows_encodeAlgorithmSection (codec : PacketCodec) (alg : ValidationAlgorithm) :
    Grows alg.sectionSize (codec.encodeAlgorithm alg) :=
  .of_emits (codec.emits_encodeAlgorithm alg) fun _ he =>
    Nat.le_of_eq (size_of_algorithmSection he)

/-- The machine writes a signature section as it is written. -/
theorem mirrors_encodeSignature (codec : PacketCodec) (signature : Octets) :
    Mirrors (Field.payload signature).wireSize (encodeSignature codec signature)
      (codec.encodeSignature signature) := by
  apply Mirrors.lift_bind
  intro format _
  exact (mirrors_encodeField _ _ _).bind_end fun _ _ _ => rfl

/-! ### Packet bodies -/

/-- The machine writes a validation as it is written. -/
theorem mirrors_encodeValidation (codec : PacketCodec) (validation : Option ValidationAlgorithm) :
    Mirrors (validation.elim 0 ValidationAlgorithm.wireSize) (encodeValidation codec validation)
      (codec.encodeValidation validation) := by
  cases validation with
  | none => exact .pure ()
  | some alg =>
      simp only [encodeValidation, PacketCodec.encodeValidation, Option.elim_some,
        ValidationAlgorithm.wireSize]
      cases alg.signature with
      | none => exact .throw _
      | some signature =>
          exact (mirrors_encodeAlgorithmSection codec alg).bind
            (grows_encodeAlgorithmSection codec alg)
            (fun _ => mirrors_encodeSignature codec signature)
            (Nat.le_add_right _ _) (Nat.le_refl _)

/-- The machine writes a body as it is written. -/
theorem mirrors_encodeBody (codec : PacketCodec) (body : PacketBody) :
    Mirrors body.wireSize (encodeBody codec body) (codec.encodeBody body) :=
  (mirrors_encodeMessage body.message).bind (grows_encodeMessage _ body.message)
    (fun _ => mirrors_encodeValidation codec body.validation) (Nat.le_add_right _ _) (Nat.le_refl _)

/-- The machine encodes a body as it is encoded. -/
theorem runsAs_encode {body : PacketBody} (hfits : body.wireSize < UInt64.size) :
    RunsAs id (encode codec body) (codec.encode body) := by
  apply ((mirrors_encodeBody codec body).runsAs_toOctets hfits).bind
  intro octets _
  exact .lift _

/-! ### Signed packet bodies -/

/-- Two elements and the section of a signer that is in memory can be counted. -/
theorem signed_fits (codec : PacketCodec) (now : UInt64) {signer : Signer}
    (hmemory : signer.InMemory) :
    Header.width + Header.maxLength + (codec.signedAlgorithm now signer).sectionSize <
      UInt64.size := by
  have hkeyId : ValidationAlgorithm.optionSize signer.keyId? ≤ Header.width + 32 := by
    cases h : signer.keyId? with
    | none => exact Nat.zero_le _
    | some keyId => rw [ValidationAlgorithm.optionSize, Signer.length_keyId h]
  have hpublicKey : ValidationAlgorithm.optionSize
      (if codec.embedPublicKey then signer.publicKey? else none) < Header.width + 2 ^ 63 := by
    split
    · cases h : signer.publicKey? with
      | none => exact Nat.lt_of_sub_pos (Nat.succ_pos _)
      | some key => exact Nat.add_lt_add_left (hmemory.publicKey key h) _
    · exact Nat.lt_of_sub_pos (Nat.succ_pos _)
  have htime : ∀ time : Option UInt64, ValidationAlgorithm.optionSize
      (time.map fun time => bigEndian timestampWidth time.toNat) ≤ Header.width + 8 := by
    intro time
    cases time with
    | none => exact Nat.zero_le _
    | some time => simp [ValidationAlgorithm.optionSize, timestampWidth]
  have hall := htime (if codec.includeSigningTime then some now else none)
  have hsize : UInt64.size = 2 ^ 64 := rfl
  simp only [ValidationAlgorithm.sectionSize, Field.wireSize, ValidationAlgorithm.partsSize,
    ValidationAlgorithm.signingTimeOctets, PacketCodec.signedAlgorithm, Header.width,
    Header.maxLength] at *
  omega

/-- The machine writes a signature that is in memory as it is written. -/
theorem mirrors_sign_bind {signer : Signer} (hmemory : signer.InMemory) (digest : Octets) :
    Mirrors (Header.width + 2 ^ 63) (liftM (signer.sign digest) >>= encodeSignature codec)
      (liftM (signer.sign digest) >>= codec.encodeSignature) := by
  apply Mirrors.lift_bind
  intro signature hsign
  apply (mirrors_encodeSignature codec signature).mono
  exact Nat.add_le_add_left (Nat.le_of_lt (hmemory.signature digest signature hsign)) _

/-- However long the value of a message is, a message that was written is no longer than an element,
so the validation can be counted behind it. -/
theorem mirrors_encodeSigning (codec : PacketCodec) {message : Message} {signer : Signer}
    (hmessage : message.wireSize < UInt64.size)
    (halg : Header.width + Header.maxLength + alg.sectionSize < UInt64.size)
    (hmemory : signer.InMemory) :
    Mirrors (UInt64.size - 1) (encodeSigning codec message alg signer)
      (codec.encodeSigning message alg signer) := by
  have hsize : UInt64.size = 2 ^ 64 := rfl
  have hlargest : Header.width + Header.maxLength = 65539 := rfl
  have hwidth : Header.width = 4 := rfl
  have hvalidation : Mirrors (UInt64.size - 1 - 65539)
      (do
        encodeAlgorithmSection codec alg
        let out ← get
        let signature ← signer.sign (signer.hash.digest out.octets)
        encodeSignature codec signature)
      (do
        codec.encodeAlgorithm alg
        let out ← get
        let signature ← signer.sign (signer.hash.digest out.octets)
        codec.encodeSignature signature) :=
    (mirrors_encodeAlgorithmSection codec alg).bind
      (grows_of_emits (codec.emits_encodeAlgorithm alg))
      (fun _ => Mirrors.get_bind fun out => mirrors_sign_bind hmemory _)
      (by omega) (by omega)
  simp only [encodeSigning, PacketCodec.encodeSigning, PacketCodec.encodeProtected, bind_assoc]
  exact (mirrors_encodeMessage message).bind (grows_of_emits (message.emits_encode _))
    (fun _ => hvalidation) (by omega) (by omega)

/-- The machine signs a message as it is signed when all that the signer makes is in memory. -/
theorem runsAs_encodeSigned {now : UInt64} {message : Message} {signer : Signer}
    (hmessage : message.wireSize < UInt64.size) (hmemory : signer.InMemory) :
    RunsAs id (encodeSigned codec now message signer) (codec.encodeSigned now message signer) := by
  apply (RunsAs.lift _).bind
  intro alg halg
  obtain ⟨-, rfl⟩ := PacketCodec.validationAlgorithm_eq_ok_iff.1 halg
  have hfits := signed_fits codec now hmemory
  have hsigning := mirrors_encodeSigning codec hmessage hfits hmemory
  apply (hsigning.runsAs_toOctets (Nat.sub_one_lt_of_lt hmessage)).bind
  intro octets _
  exact .lift _

/-! ### Everything together -/

/-- Whatever octets there are, the machine reads them without a fault, and as they are read. The
counters of the loops are among what it would stop for. -/
structure ReadsWithoutFault : Prop where
  /-- A reader may be used in any way: any numbers of octets may be asked for. -/
  steps : ∀ octets steps, octets.length < UInt64.size →
    Moving.runAll (Reader.ofOctets octets) steps =
      .ok (Cursor.withReader ((Cursor.ofOctets octets).advanceByAll steps))
  remaining : ∀ c : Cursor, c.toReader.remaining = .ok c.remaining
  field : ∀ format tid (c : Cursor), c.Fits →
    RunsAs Decoded.withReader (decodeField format tid c.toReader) (format.decode tid c)
  message : ∀ registry kind (c : Cursor), c.Fits →
    RunsAs Decoded.withReader (decodeMessage registry kind c.toReader)
      (Message.decode registry kind c)
  octets : ∀ registry kind octets, octets.length < UInt64.size →
    RunsAs id (messageOfOctets registry kind octets) (Message.ofOctets registry kind octets)

/-- A value that the machine can count on the wire is written without a fault behind whatever leaves
room for it, and as it is written. That a container wrote what it announced is among what the
machine would stop for. -/
structure WritesWithoutFault : Prop where
  element : ∀ type value, Mirrors (Header.width + value.length) (writeElement type value)
    (CcnxPacket.writeElement type value)
  field : ∀ format field type,
    Mirrors field.wireSize (encodeField format field type) (format.encode field type)
  fieldSize : ∀ format field, field.wireSize < UInt64.size →
    RunsAs id (fieldSize format field) (format.encodedSize field)
  message : ∀ registry message,
    Mirrors message.wireSize (encodeMessage registry message) (message.encode registry)
  messageSize : ∀ registry message, message.wireSize < UInt64.size →
    RunsAs id (messageSize registry message) (message.encodedSize registry)
  octets : ∀ registry message, message.wireSize < UInt64.size →
    RunsAs id (messageToOctets registry message) (message.toOctets registry)

/-- The machine runs the codec without a fault, and as the codec runs. -/
structure RunsWithoutFault (codec : PacketCodec) : Prop where
  decode : ∀ octets, octets.length < UInt64.size →
    RunsAs id (decode codec octets) (codec.decode octets)
  protectedRegion : ∀ octets, octets.length < UInt64.size →
    RunsAs id (protectedRegion codec octets) (codec.protectedRegion octets)
  verify : ∀ octets verifier, octets.length < UInt64.size →
    RunsAs id (verify codec octets verifier) (codec.verify octets verifier)
  encode : ∀ body, body.wireSize < UInt64.size → RunsAs id (encode codec body) (codec.encode body)
  encodeSigned : ∀ now message signer, message.wireSize < UInt64.size → signer.InMemory →
    RunsAs id (encodeSigned codec now message signer) (codec.encodeSigned now message signer)

/-- The machine reads as is read, without a fault. -/
theorem readsWithoutFault : ReadsWithoutFault where
  steps _ steps hfits := Moving.runAll_toReader (Cursor.fits_ofOctets hfits) steps
  remaining := Reader.remaining_toReader
  field format tid _ hfits := runsAs_decodeField hfits format tid
  message _ _ _ hfits := runsAs_decodeMessage hfits
  octets _ _ _ hfits := runsAs_messageOfOctets hfits

/-- The machine writes as is written, without a fault. -/
theorem writesWithoutFault : WritesWithoutFault where
  element := mirrors_writeElement
  field := mirrors_encodeField
  fieldSize _ _ hfits := runsAs_fieldSize hfits
  message _ message := mirrors_encodeMessage message
  messageSize _ _ hfits := runsAs_messageSize hfits
  octets _ _ hfits := runsAs_messageToOctets hfits

/-- The machine runs every operation of a codec without a fault. -/
theorem runsWithoutFault (codec : PacketCodec) : RunsWithoutFault codec where
  decode _ hfits := runsAs_decode hfits
  protectedRegion _ hfits := runsAs_protectedRegion hfits
  verify _ verifier hfits := runsAs_verify hfits verifier
  encode _ hfits := runsAs_encode hfits
  encodeSigned _ _ _ hfits hmemory := runsAs_encodeSigned hfits hmemory

/-- Nothing that is read, written, signed or verified stops the machine, whatever the registry
holds, whatever the limit is and whatever octets come. -/
theorem machine_never_stops :
    ReadsWithoutFault ∧ WritesWithoutFault ∧ ∀ codec, RunsWithoutFault codec :=
  ⟨readsWithoutFault, writesWithoutFault, runsWithoutFault⟩

/-- An Interest with a segment of two octets, and the checksum of what is in front of it. -/
def checkedInterest : Octets :=
  [0, 1, 0, 10, 0, 0, 0, 6, 0, 1, 0, 2, 97, 98, 0, 3, 0, 4, 0, 2, 0, 0, 0, 4, 0, 4,
    245, 197, 190, 82]

theorem run_checkedInterest :
    (encodeSigned { registry := .shared, includeSigningTime := false } 0
        (.interest { name := ⟨[⟨.name, [97, 98]⟩]⟩ }) .checksum).run =
        .ok (.ok checkedInterest) ∧
      (protectedRegion { registry := .shared } checkedInterest).run =
        .ok (.ok (checkedInterest.take 22)) := by
  have hsigned : PacketCodec.encodeSigned { registry := .shared, includeSigningTime := false } 0
      (.interest { name := ⟨[⟨.name, [97, 98]⟩]⟩ }) Signer.checksum = .ok checkedInterest := by
    decide +kernel
  have hregion : PacketCodec.protectedRegion { registry := .shared } checkedInterest =
      .ok (checkedInterest.take 22) := by
    decide +kernel
  have hmemory : Signer.InMemory .checksum := by
    apply Signer.inMemory_of_isAcceptable
    intro key hkey
    cases hkey
  have hwrite := (machine_never_stops.2.2
    { registry := .shared, includeSigningTime := false }).encodeSigned 0
      (.interest { name := ⟨[⟨.name, [97, 98]⟩]⟩ }) .checksum (by decide) hmemory
  have hread := (machine_never_stops.2.2 { registry := .shared }).protectedRegion checkedInterest
    (by decide)
  rw [hsigned] at hwrite
  rw [hregion] at hread
  exact ⟨hwrite, hread⟩

end Machine

end CcnxPacket
