import CcnxPacket.Proofs.Signing

/-!
# Signing writes what encoding the signed body writes

A message can be put on the wire with its signature in one go, the signature being made from what is
already written, or as a body that carries the signature already. Both ways give the same octets or
fail alike, and what was signed is what the reader of the octets finds covered.
-/

namespace CcnxPacket

/-- Every signer can describe its signatures. -/
theorem Signer.validationAlgorithm_eq_ok (signer : Signer) (embedPublicKey : Bool)
    (signingTime : Option UInt64) :
    signer.validationAlgorithm embedPublicKey signingTime =
      .ok { suite := signer.suite
            keyId := signer.keyId?
            publicKey := if embedPublicKey then signer.publicKey? else none
            signingTime
            signature := none } := by
  obtain ⟨scheme, key⟩ := signer
  cases scheme <;> cases embedPublicKey <;> rfl

namespace PacketCodec

/-- The octets that the signature of a message with the given algorithm covers. -/
def coveredOctets (codec : PacketCodec) (message : Message) (alg : ValidationAlgorithm) :
    Except Error Octets := do
  let head ← message.toOctets codec.registry
  let part ← (codec.encodeAlgorithm alg).toOctets
  return head ++ part

variable {codec : PacketCodec} {message : Message} {alg : ValidationAlgorithm} {signer : Signer}
  {now : UInt64} {signature octets : Octets}

theorem toOctets_encodeAlgorithm (codec : PacketCodec) (alg : ValidationAlgorithm) :
    (codec.encodeAlgorithm alg).toOctets = (codec.algorithmSection alg).map Element.octets :=
  (codec.emits_encodeAlgorithm alg).toOctets_eq

/-- What the signature covers are the protected elements. -/
theorem coveredOctets_eq (codec : PacketCodec) (message : Message) (alg : ValidationAlgorithm) :
    codec.coveredOctets message alg =
      (codec.protectedElements message alg).map Element.concat := by
  rw [coveredOctets, Message.toOctets, (message.emits_encode codec.registry).toOctets_eq,
    toOctets_encodeAlgorithm, protectedElements]
  cases message.element codec.registry with
  | error e => rfl
  | ok e =>
      cases codec.algorithmSection alg with
      | error e' => rfl
      | ok part =>
          rw [Element.before, Element.before]
          simp [Except.map]

/-- The section of an algorithm does not hold the signature. -/
theorem algorithmSection_withSignature (codec : PacketCodec) (alg : ValidationAlgorithm)
    (signature : Octets) :
    codec.algorithmSection (alg.withSignature signature) = codec.algorithmSection alg := by
  unfold algorithmSection
  congr 1
  funext format
  have hvalue : format.valueOf (.validationAlgorithm (alg.withSignature signature)) =
      format.valueOf (.validationAlgorithm alg) := by
    rw [← Format.valueOf_unsigned, ← Format.valueOf_unsigned format alg]
    rfl
  rw [hvalue]
  rfl

/-- A signed body is the elements that the signature covers and the section of the signature. -/
theorem bodyElements_withSignature (codec : PacketCodec) (message : Message)
    (alg : ValidationAlgorithm) (signature : Octets) :
    codec.bodyElements { message, validation := some (alg.withSignature signature) } =
      (do
        let covered ← codec.protectedElements message alg
        let payload ← codec.signatureSection signature
        return covered ++ [payload]) := by
  have helements : codec.validationElements (some (alg.withSignature signature)) =
      Element.before (codec.algorithmSection (alg.withSignature signature))
        (Element.before (codec.signatureSection signature) (.ok [])) := rfl
  rw [bodyElements, helements, algorithmSection_withSignature, protectedElements]
  cases message.element codec.registry with
  | error e => rfl
  | ok e =>
      cases codec.algorithmSection alg with
      | error e' => rfl
      | ok part => cases codec.signatureSection signature <;> rfl

/-- Signing what is covered on the way gives the octets of the body with the signature. -/
theorem toOctets_encodeSigning_eq
    (hsign : ∀ covered, codec.coveredOctets message alg = .ok covered →
      signer.sign (signer.hash.digest covered) = .ok signature) :
    (codec.encodeSigning message alg signer).toOctets =
      (codec.bodyElements { message, validation := some (alg.withSignature signature) }).map
        Element.concat := by
  rw [toOctets_encodeSigning, bodyElements_withSignature]
  cases hcovered : codec.protectedElements message alg with
  | error e => rfl
  | ok covered =>
      have hoctets : codec.coveredOctets message alg = .ok (Element.concat covered) := by
        rw [coveredOctets_eq, hcovered]
        rfl
      rw [Result.ok_bind, Result.ok_bind, Signer.sign_maker, Signer.hash_maker, hsign _ hoctets,
        Result.ok_bind]
      cases codec.signatureSection signature <;> rfl

/-- The signature covers the message and the section of its algorithm, in what is read back. -/
theorem decode_of_encodeSigned (hassigned : message.IsAssigned)
    (h : codec.encodeSigned now message signer = .ok octets) :
    ∃ covered signature decoded,
      codec.coveredOctets message (codec.signedAlgorithm now signer) = .ok covered ∧
      signer.sign (signer.hash.digest covered) = .ok signature ∧
      codec.decode octets = .ok decoded ∧
      codec.protectedRegion octets = .ok covered ∧
      decoded.body =
        { message
          validation := some ((codec.signedAlgorithm now signer).withSignature signature) } := by
  obtain ⟨hmade, hlimit, e, part, signature, payload, he, hpart, hsign, hpayload, rfl⟩ :=
    encodeSigned_eq_ok_iff.1 h
  have hdecode := decode_eq_ok_iff_spells.2
    ⟨hlimit, spellsBody_of_elements hassigned hmade he hpart hpayload⟩
  have hcovered : codec.coveredOctets message (codec.signedAlgorithm now signer) =
      .ok (Element.concat [e, part]) := by
    rw [coveredOctets_eq, protectedElements_eq_ok_iff.2 ⟨e, part, he, hpart, rfl⟩]
    rfl
  have hregion : codec.protectedRegion (Element.concat [e, part, payload]) =
      .ok (Element.concat [e, part]) := by
    have hsplit : Element.concat [e, part, payload] =
        Element.concat [e, part] ++ Element.concat [payload] :=
      Element.concat_append [e, part] [payload]
    rw [protectedRegion, hdecode, Result.ok_bind, hsplit]
    exact congrArg _ List.take_left
  exact ⟨_, signature, _, hcovered, hsign, hdecode, hregion, rfl⟩

/-- Signing a message and encoding it with the signer's signature are the same. What is written can
be read, the signature covers what was signed, and the body that is read is written alike. -/
theorem encodeSigned_eq_encode (codec : PacketCodec) (now : UInt64) (message : Message)
    (signer : Signer) :
    ∃ alg, signer.validationAlgorithm codec.embedPublicKey
        (if codec.includeSigningTime then some now else none) = .ok alg ∧
      ∀ signature,
        (∀ covered, codec.coveredOctets message alg = .ok covered →
          signer.sign (signer.hash.digest covered) = .ok signature) →
        codec.encodeSigned now message signer =
          codec.encode { message, validation := some (alg.withSignature signature) } ∧
        (message.IsAssigned → ∀ octets, codec.encodeSigned now message signer = .ok octets →
          ∃ covered decoded, codec.coveredOctets message alg = .ok covered ∧
            codec.decode octets = .ok decoded ∧
            codec.protectedRegion octets = .ok covered ∧
            codec.encode decoded.body = .ok octets) := by
  have halg := signer.validationAlgorithm_eq_ok codec.embedPublicKey
    (if codec.includeSigningTime then some now else none)
  refine ⟨codec.signedAlgorithm now signer, halg, fun signature hsign => ?_⟩
  have hsame : codec.encodeSigned now message signer =
      codec.encode
        { message
          validation := some ((codec.signedAlgorithm now signer).withSignature signature) } := by
    rw [encodeSigned, Signer.validationAlgorithm_maker, halg, Result.ok_bind, encode_eq,
      ← toOctets_encodeSigning_eq hsign]
    rfl
  refine ⟨hsame, fun hassigned octets hoctets => ?_⟩
  obtain ⟨covered, made, decoded, hcovered, hmade, hdecode, hregion, hbody⟩ :=
    decode_of_encodeSigned hassigned hoctets
  -- The signer signs the same octets, so the signature that was written is the given one.
  have hmadeSame : made = signature := by
    rw [hsign covered hcovered] at hmade
    exact (Except.ok.inj hmade).symm
  refine ⟨covered, decoded, hcovered, hdecode, hregion, ?_⟩
  rw [hbody, hmadeSame, ← hsame, hoctets]

/-- An Interest with a name of one segment. -/
def segmentInterest : Message := .interest { name := ⟨[⟨.name, [97]⟩]⟩ }

/-- `segmentInterest` with a checksum of the time 7, up to the section that holds the checksum. -/
def checkedOctets : Octets :=
  [0, 1, 0, 9, 0, 0, 0, 5, 0, 1, 0, 1, 97,
    0, 3, 0, 16, 0, 2, 0, 12, 0, 15, 0, 8, 0, 0, 0, 0, 0, 0, 0, 7]

theorem encodeSigned_segmentInterest :
    encodeSigned { registry := .shared } 7 segmentInterest Signer.checksum =
        .ok (checkedOctets ++ [0, 4, 0, 4, 1, 170, 226, 35]) ∧
      encode { registry := .shared }
          { message := segmentInterest
            validation := some
              { suite := .crc32c, keyId := none, publicKey := none, signingTime := some 7,
                signature := some [1, 170, 226, 35] } } =
        .ok (checkedOctets ++ [0, 4, 0, 4, 1, 170, 226, 35]) ∧
      protectedRegion { registry := .shared } (checkedOctets ++ [0, 4, 0, 4, 1, 170, 226, 35]) =
        .ok checkedOctets := by
  have hassigned : segmentInterest.IsAssigned := by
    change Name.IsAssigned _
    decide
  have hcovered : coveredOctets { registry := .shared } segmentInterest
      (signedAlgorithm { registry := .shared } 7 .checksum) = .ok checkedOctets := by
    decide +kernel
  have hsigned : encodeSigned { registry := .shared } 7 segmentInterest Signer.checksum =
      .ok (checkedOctets ++ [0, 4, 0, 4, 1, 170, 226, 35]) := by
    decide +kernel
  have hsign : Signer.checksum.sign (Signer.checksum.hash.digest checkedOctets) =
      .ok [1, 170, 226, 35] := by
    decide +kernel
  obtain ⟨alg, halg, hagree⟩ :=
    encodeSigned_eq_encode { registry := .shared } 7 segmentInterest .checksum
  have hdescribed : signedAlgorithm { registry := .shared } 7 .checksum = alg :=
    Except.ok.inj halg
  rw [← hdescribed] at hagree
  obtain ⟨hsame, hread⟩ := hagree [1, 170, 226, 35] fun covered h => by
    rw [hcovered] at h
    cases h
    exact hsign
  obtain ⟨covered, decoded, hregion, -, hprotected, -⟩ := hread hassigned _ hsigned
  rw [hcovered] at hregion
  cases hregion
  exact ⟨hsigned, hsame.symm.trans hsigned, hprotected⟩

end PacketCodec

end CcnxPacket
