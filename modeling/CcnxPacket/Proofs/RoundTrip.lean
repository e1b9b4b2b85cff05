import CcnxPacket.Proofs.Writing.Packet

/-!
# Reading back what was written

What a codec writes of a packet body it reads back as that body, whatever its registry calls which
format, and the signature of the body covers everything but the section that holds it. Segments of
application kinds beyond the fourth are written but not read, so the name must not have any. Every
algorithm that a body can hold is one that `make` has checked.
-/

namespace CcnxPacket

/-- The octets of the section that holds the signature. -/
def PacketBody.payloadSize (body : PacketBody) : Nat :=
  match body.validation with
  | none => 0
  | some alg => Header.width + (alg.signature.getD []).length

namespace ValidationAlgorithm

/-- An algorithm is put together again from its description and its signature. -/
theorem unsigned_withSignature {alg : ValidationAlgorithm} {signature : Octets}
    (h : alg.signature = some signature) : alg.unsigned.withSignature signature = alg := by
  cases alg
  cases h
  rfl

end ValidationAlgorithm

namespace PacketCodec

variable {codec : PacketCodec} {message : Message} {alg : ValidationAlgorithm}
  {signature octets : Octets} {e part payload : Element}

/-- A signature section is as long as a header and the signature. -/
theorem size_of_signatureSection (h : codec.signatureSection signature = .ok payload) :
    payload.size = Header.width + signature.length := by
  have hsection := isSignatureSection_of_signatureSection h
  obtain ⟨-, hvalue⟩ := Registry.spells_payload_iff.1 hsection.spelled
  exact Element.size_of_value hvalue

/-- The elements of a message and its validation are read back as these. -/
theorem spellsBody_of_elements (hassigned : message.IsAssigned) (hmade : alg.IsMade)
    (he : message.element codec.registry = .ok e) (hpart : codec.algorithmSection alg = .ok part)
    (hpayload : codec.signatureSection signature = .ok payload) :
    SpellsBody codec.registry (Element.concat [e, part, payload])
      { body := { message, validation := some (alg.unsigned.withSignature signature) }
        protectedSize := (Element.concat [e, part]).length } := by
  have hspells := SpellsBody.signed (Message.isMessage_of_element hassigned he)
    (isAlgorithmSection_of_algorithmSection hmade hpart)
    (isSignatureSection_of_signatureSection hpayload)
  simpa using hspells

/-- The element of a message spells an unsigned body. -/
theorem spellsBody_of_element (hassigned : message.IsAssigned)
    (he : message.element codec.registry = .ok e) :
    SpellsBody codec.registry (Element.concat [e])
      { body := { message }, protectedSize := (Element.concat [e]).length } := by
  have hspells := SpellsBody.unsigned (Message.isMessage_of_element hassigned he)
  simpa using hspells

/-- A body that can be read back spells itself in the octets of its elements. -/
theorem spellsBody_of_bodyElements {body : PacketBody} {es : List Element}
    (hassigned : body.message.IsAssigned) (hmade : ∀ alg ∈ body.validation, alg.IsMade)
    (hes : codec.bodyElements body = .ok es) :
    body.payloadSize ≤ (Element.concat es).length ∧
      SpellsBody codec.registry (Element.concat es)
        { body, protectedSize := (Element.concat es).length - body.payloadSize } := by
  obtain ⟨e, rest, he, hrest, rfl⟩ := Element.before_eq_ok_iff.1 hes
  obtain ⟨message, validation⟩ := body
  cases validation with
  | none =>
      cases hrest
      exact ⟨Nat.zero_le _, spellsBody_of_element hassigned he⟩
  | some alg =>
      simp only [validationElements] at hrest
      cases hsignature : alg.signature with
      | none =>
          rw [hsignature] at hrest
          cases hrest
      | some signature =>
          simp only [hsignature] at hrest
          obtain ⟨part, last, hpart, hlast, rfl⟩ := Element.before_eq_ok_iff.1 hrest
          obtain ⟨payload, none, hpayload, hnone, rfl⟩ := Element.before_eq_ok_iff.1 hlast
          cases hnone
          have hsize := size_of_signatureSection hpayload
          have hcovered : (Element.concat [e, part, payload]).length =
              (Element.concat [e, part]).length + (Header.width + signature.length) := by
            simp [hsize]
            omega
          have hspells := spellsBody_of_elements hassigned (hmade alg rfl) he hpart hpayload
          rw [ValidationAlgorithm.unsigned_withSignature hsignature] at hspells
          simp only [PacketBody.payloadSize, hsignature, Option.getD_some, hcovered]
          exact ⟨Nat.le_add_left _ _, by rwa [Nat.add_sub_cancel]⟩

/-- What is written of a body is read as the body, and all but the section of the signature is
covered by it. An algorithm without a signature is not written. -/
theorem decode_of_encode_eq_ok (codec : PacketCodec) (body : PacketBody) :
    (body.message.IsAssigned → (∀ alg ∈ body.validation, alg.IsMade) →
      ∀ octets, codec.encode body = .ok octets →
        body.payloadSize ≤ octets.length ∧
        codec.decode octets =
          .ok { body, protectedSize := octets.length - body.payloadSize }) ∧
    ((∃ alg ∈ body.validation, alg.signature = none) → ∃ e, codec.encode body = .error e) := by
  constructor
  · intro hassigned hmade octets h
    obtain ⟨hlimit, es, hes, rfl⟩ := encode_eq_ok_iff.1 h
    obtain ⟨hsize, hspells⟩ := spellsBody_of_bodyElements hassigned hmade hes
    exact ⟨hsize, decode_eq_ok_iff_spells.2 ⟨hlimit, hspells⟩⟩
  · intro h
    obtain ⟨alg, halg, hunsigned⟩ := h
    cases hencode : codec.encode body with
    | error e => exact ⟨e, rfl⟩
    | ok octets =>
        obtain ⟨-, es, hes, -⟩ := encode_eq_ok_iff.1 hencode
        obtain ⟨e, rest, -, hrest, -⟩ := Element.before_eq_ok_iff.1 hes
        rw [Option.mem_def] at halg
        simp only [halg, validationElements, hunsigned] at hrest
        cases hrest

/-- A Content Object with a name and a payload type, and with a one-octet signature. -/
def signedObject : PacketBody :=
  { message := .contentObject { name := some ⟨[⟨.app 3, [1]⟩]⟩, payloadType := some .key }
    validation := some
      { suite := .hmacSha256, keyId := some [9], publicKey := none, signingTime := none,
        signature := some [7] } }

/-- `signedObject` on the wire. -/
def signedObjectOctets : Octets :=
  [0, 2, 0, 14, 0, 0, 0, 5, 16, 3, 0, 1, 1, 0, 5, 0, 1, 1,
    0, 3, 0, 9, 0, 4, 0, 5, 0, 9, 0, 1, 9, 0, 4, 0, 1, 7]

theorem decode_signedObject :
    encode { registry := .shared } signedObject = .ok signedObjectOctets ∧
      decode { registry := .shared } signedObjectOctets =
        .ok { body := signedObject, protectedSize := 31 } := by
  have hassigned : signedObject.message.IsAssigned := by
    intro name hname
    cases hname
    decide
  have hmade : ∀ alg ∈ signedObject.validation, alg.IsMade := by
    intro alg halg
    cases halg
    rfl
  have hencode : encode { registry := .shared } signedObject = .ok signedObjectOctets := by
    decide +kernel
  have hdecode := (decode_of_encode_eq_ok { registry := .shared } signedObject).1 hassigned hmade
    signedObjectOctets hencode
  exact ⟨hencode, hdecode.2⟩

end PacketCodec

end CcnxPacket
