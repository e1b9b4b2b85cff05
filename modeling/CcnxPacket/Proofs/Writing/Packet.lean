import CcnxPacket.Packet.Signed
import CcnxPacket.Proofs.Spelling.Packet
import CcnxPacket.Proofs.Writing.Message

/-!
# What packet bodies are written as

A packet body is written as the elements of its message and of its sections, and it fails with the
first of them that does not exist. What is signed is the octets of the elements before the
signature.
-/

namespace CcnxPacket.PacketCodec

variable {codec : PacketCodec}

/-- The section that the validation algorithm is written as. -/
def algorithmSection (codec : PacketCodec) (alg : ValidationAlgorithm) : Except Error Element := do
  let format ← codec.registry.lookup alg.suite.tid
  let value ← format.valueOf (.validationAlgorithm alg)
  Element.make TlvType.validationAlgorithm (rawElement alg.suite.tlvType value)

/-- The section that the signature is written as. -/
def signatureSection (codec : PacketCodec) (signature : Octets) : Except Error Element := do
  let format ← codec.registry.lookup Tid.validationPayload
  let value ← format.valueOf (.payload signature)
  Element.make TlvType.validationPayload value

/-- The elements that a signature covers. -/
def protectedElements (codec : PacketCodec) (message : Message) (alg : ValidationAlgorithm) :
    Except Error (List Element) :=
  Element.before (message.element codec.registry)
    (Element.before (codec.algorithmSection alg) (.ok []))

/-- The elements that follow the message. -/
def validationElements (codec : PacketCodec) :
    Option ValidationAlgorithm → Except Error (List Element)
  | none => .ok []
  | some alg =>
    match alg.signature with
    | none => .error missingPayload
    | some signature =>
      Element.before (codec.algorithmSection alg)
        (Element.before (codec.signatureSection signature) (.ok []))

/-- The elements that a packet body is written as. -/
def bodyElements (codec : PacketCodec) (body : PacketBody) : Except Error (List Element) :=
  Element.before (body.message.element codec.registry) (codec.validationElements body.validation)

/-! ### The sections -/

theorem emits_encodeAlgorithm (alg : ValidationAlgorithm) :
    Writer.Emits (codec.encodeAlgorithm alg) (codec.algorithmSection alg) fun _ => () := by
  unfold encodeAlgorithm algorithmSection
  apply Writer.Emits.lift_bind
  intro format _
  rw [FieldFormat.encodedSize_format, format.encodedSize_eq]
  apply Writer.Emits.lift_map_bind
  intro value hvalue
  rw [← length_rawElement alg.suite.tlvType]
  apply Writer.emits_of_header
  intro e _ hraw
  have hinner := Element.length_le_of_rawElement hraw
  have hemits := format.emits_encode (.validationAlgorithm alg) alg.suite.tlvType
  rw [hvalue, Result.ok_bind, Element.make_of_fits hinner] at hemits
  exact Writer.Yields.bind_pure hemits fun _ => ()

theorem emits_encodeSignature (signature : Octets) :
    Writer.Emits (codec.encodeSignature signature) (codec.signatureSection signature)
      fun _ => () := by
  unfold encodeSignature signatureSection
  apply Writer.Emits.lift_bind
  intro format _
  exact (format.emits_encode (.payload signature) TlvType.validationPayload).bind_pure fun _ => ()

/-! ### Packet bodies -/

/-- The protected part of a body is written as its elements, as far as there are any. -/
theorem emitsAll_encodeProtected (message : Message) (alg : ValidationAlgorithm) :
    Writer.EmitsAll (codec.encodeProtected message alg) (codec.protectedElements message alg) :=
  (message.emits_encode codec.registry).before (codec.emits_encodeAlgorithm alg).emitsAll

theorem emitsAll_encodeValidation (validation : Option ValidationAlgorithm) :
    Writer.EmitsAll (codec.encodeValidation validation)
      (codec.validationElements validation) := by
  cases validation with
  | none => exact Writer.emitsAll_pure
  | some alg =>
      simp only [encodeValidation, validationElements]
      cases alg.signature with
      | none => exact Writer.emitsAll_throw missingPayload
      | some signature =>
          exact (codec.emits_encodeAlgorithm alg).before
            (codec.emits_encodeSignature signature).emitsAll

/-- Encoding a body is putting its elements in a row and checking the limit. -/
theorem encode_eq (body : PacketBody) :
    codec.encode body = (codec.bodyElements body).map Element.concat >>= codec.withinLimit := by
  have hall : Writer.EmitsAll (codec.encodeBody body) (codec.bodyElements body) :=
    (body.message.emits_encode codec.registry).before
      (codec.emitsAll_encodeValidation body.validation)
  rw [encode, hall.toOctets_eq]

theorem withinLimit_eq_ok_iff {octets written : Octets} :
    codec.withinLimit octets = .ok written ↔ octets.length ≤ codec.limit ∧ written = octets := by
  simp only [withinLimit, Result.bind_eq_ok_iff, checkSize_eq_ok_iff, Result.pure_eq_ok,
    Except.ok.injEq]
  simp [eq_comm]

/-- Encoded are the bodies that have elements within the limit. -/
theorem encode_eq_ok_iff {body : PacketBody} {octets : Octets} :
    codec.encode body = .ok octets ↔
      octets.length ≤ codec.limit ∧
        ∃ es, codec.bodyElements body = .ok es ∧ octets = Element.concat es := by
  rw [encode_eq, Result.bind_eq_ok_iff]
  simp only [Result.map_eq_ok_iff, withinLimit_eq_ok_iff]
  constructor
  · intro h
    obtain ⟨_, ⟨es, hes, rfl⟩, hlimit, rfl⟩ := h
    exact ⟨hlimit, es, hes, rfl⟩
  · intro h
    obtain ⟨hlimit, es, hes, rfl⟩ := h
    exact ⟨_, ⟨es, hes, rfl⟩, hlimit, rfl⟩

theorem withinLimit_eq (octets : Octets) :
    codec.withinLimit octets =
      if codec.limit < octets.length then .error (.messageTooLarge octets.length codec.limit)
      else .ok octets := by
  unfold withinLimit checkSize
  by_cases h : octets.length ≤ codec.limit
  · rw [if_pos h, if_neg (Nat.not_lt.2 h)]
    rfl
  · rw [if_neg h, if_pos (Nat.not_le.1 h)]
    rfl

/-- A body is too large if the header of its message cannot hold the length of the value, or if the
limit does not allow the size of the whole. -/
theorem encode_of_bodyElements {body : PacketBody} {type : UInt16} {value : Octets}
    {es : List Element}
    (h : codec.bodyElements body = (Element.make type value).map (· :: es)) :
    codec.encode body =
      if Header.maxLength < value.length then
        .error (.messageTooLarge value.length Header.maxLength)
      else codec.withinLimit (rawElement type value ++ Element.concat es) := by
  rw [encode_eq, h]
  by_cases hfits : value.length ≤ Header.maxLength
  · rw [Element.make_of_fits hfits, if_neg (Nat.not_lt.2 hfits)]
    rfl
  · rw [Element.make_of_not_fits hfits, if_pos (Nat.not_le.1 hfits)]
    rfl

/-! ### Signed packet bodies -/

/-- The signature is made from the digest of what is written before it. -/
theorem toOctets_encodeSigning (message : Message) (alg : ValidationAlgorithm)
    (signer : SignatureMaker) :
    (codec.encodeSigning message alg signer).toOctets =
      (do
        let covered ← codec.protectedElements message alg
        let signature ← signer.sign (signer.hash.digest (Element.concat covered))
        let payload ← codec.signatureSection signature
        return Element.concat (covered ++ [payload])) := by
  obtain ⟨octets, hyields, hoctets⟩ := codec.emitsAll_encodeProtected message alg
  unfold encodeSigning Writer.toOctets
  -- The signer sees the output, which so far holds the protected elements and nothing else.
  cases hcovered : codec.protectedElements message alg with
  | error e =>
      rw [hcovered] at hyields
      rw [Writer.run_bind_of_error (hyields .empty)]
      rfl
  | ok covered =>
      rw [hcovered] at hyields
      cases hoctets covered hcovered
      have hsigning : Writer.Emits
          (liftM (signer.sign (signer.hash.digest (Element.concat covered))) >>=
            codec.encodeSignature)
          (signer.sign (signer.hash.digest (Element.concat covered)) >>= codec.signatureSection)
          fun _ => () :=
        Writer.Emits.lift_bind fun signature _ => codec.emits_encodeSignature signature
      rw [Writer.run_bind_of_ok (hyields .empty), Writer.run_bind_of_ok (Writer.run_get _),
        Output.octets_append, Output.octets_empty, List.nil_append, hsigning, Result.ok_bind]
      cases signer.sign (signer.hash.digest (Element.concat covered)) with
      | error e => rfl
      | ok signature =>
          simp only [Result.ok_bind]
          cases codec.signatureSection signature with
          | error e => rfl
          | ok payload => simp [Element.emitted]

/-! ### What the sections spell -/

/-- The section of an algorithm that `make` returns says all of it but the signature. -/
theorem isAlgorithmSection_of_algorithmSection {alg : ValidationAlgorithm} {part : Element}
    (hmade : alg.IsMade) (h : codec.algorithmSection alg = .ok part) :
    part.IsAlgorithmSection codec.registry alg.unsigned := by
  simp only [algorithmSection, Result.bind_eq_ok_iff, Registry.lookup_eq_ok_iff,
    Element.make_eq_ok_iff] at h
  obtain ⟨format, hformat, value, hvalue, htype, hraw⟩ := h
  have hinner := Element.length_le_of_rawElement hraw
  let inner : Element := ⟨alg.suite.tlvType, value, hinner⟩
  rw [← Format.valueOf_unsigned] at hvalue
  have hspells : format.Spells inner (.validationAlgorithm alg.unsigned) :=
    Format.spells_of_valueOf hvalue ⟨rfl, hmade, rfl⟩
  exact ⟨htype, inner, hraw, format, hformat, hspells⟩

/-- What is written as a signature section is one. -/
theorem isSignatureSection_of_signatureSection {signature : Octets} {payload : Element}
    (h : codec.signatureSection signature = .ok payload) :
    payload.IsSignatureSection codec.registry signature := by
  simp only [signatureSection, Result.bind_eq_ok_iff, Registry.lookup_eq_ok_iff,
    Element.make_eq_ok_iff] at h
  obtain ⟨format, hformat, value, hvalue, htype, rfl⟩ := h
  exact ⟨htype, format, hformat, Format.spells_of_valueOf hvalue trivial⟩

end CcnxPacket.PacketCodec
