import CcnxPacket.Config
import CcnxPacket.Proofs.Signing
import CcnxPacket.Proofs.Truncation

/-!
# Size limits

A codec refuses octets beyond its limit, and that is all the limit does: with a lower limit it reads
and writes what it does with a higher one, as far as that is within the lower one. No packet body is
larger than `largestBody` and some body has just that size. So that limit is as good as none, while
every lower one keeps a packet body out.
-/

namespace CcnxPacket

/-- Elements take no more than as many of the largest ones. -/
theorem Element.length_concat_le (es : List Element) :
    (concat es).length ≤ es.length * (Header.width + Header.maxLength) := by
  induction es with
  | nil => exact Nat.zero_le _
  | cons e es ih =>
      have hfits := e.fits
      rw [concat_cons, List.length_append, length_octets, size, List.length_cons,
        Nat.add_one_mul]
      omega

/-- Octets of at most three elements are no larger than the largest body. -/
theorem Element.length_concat_le_largestBody {es : List Element} (h : es.length ≤ 3) :
    (concat es).length ≤ largestBody :=
  Nat.le_trans (length_concat_le es) (Nat.mul_le_mul_right _ h)

namespace PacketCodec

/-- The codec with another limit. -/
def withLimit (codec : PacketCodec) (limit : Nat) : PacketCodec := { codec with limit }

/-- What was written, refused when it is beyond the limit. -/
def refuseBeyond (limit : Nat) : Except Error Octets → Except Error Octets
  | .ok octets =>
    if limit < octets.length then .error (.messageTooLarge octets.length limit) else .ok octets
  | .error e => .error e

variable {codec : PacketCodec} {limit unlimited : Nat}

/-! ### No packet body is larger -/

/-- What decodes is no longer than the largest body. -/
theorem length_le_of_decode {octets : Octets} {decoded : DecodedBody}
    (h : codec.decode octets = .ok decoded) : octets.length ≤ largestBody := by
  obtain ⟨-, hspells⟩ := decode_eq_ok_iff_spells.1 h
  obtain ⟨e, sections, rfl, -, hsections⟩ := hspells.exists_elements
  apply Element.length_concat_le_largestBody
  rw [List.length_cons]
  rcases hsections with ⟨rfl, -⟩ | ⟨htwo, -⟩
  · decide
  · omega

/-- A validation takes at most two elements. -/
theorem length_le_of_validationElements {validation : Option ValidationAlgorithm}
    {es : List Element} (h : codec.validationElements validation = .ok es) : es.length ≤ 2 := by
  cases validation with
  | none =>
      cases h
      exact Nat.zero_le _
  | some alg =>
      simp only [validationElements] at h
      cases hsignature : alg.signature with
      | none =>
          rw [hsignature] at h
          cases h
      | some signature =>
          simp only [hsignature] at h
          obtain ⟨part, last, -, hlast, rfl⟩ := Element.before_eq_ok_iff.1 h
          obtain ⟨payload, rest, -, hrest, rfl⟩ := Element.before_eq_ok_iff.1 hlast
          cases hrest
          exact Nat.le_refl _

/-- A body takes at most three elements, each as long as elements can be. -/
theorem length_le_of_bodyElements {body : PacketBody} {es : List Element}
    (h : codec.bodyElements body = .ok es) : (Element.concat es).length ≤ largestBody := by
  obtain ⟨e, rest, -, hrest, rfl⟩ := Element.before_eq_ok_iff.1 h
  apply Element.length_concat_le_largestBody
  exact Nat.succ_le_succ (length_le_of_validationElements hrest)

/-- What is signed is no longer than the largest body. -/
theorem length_le_of_encodeSigning {message : Message} {alg : ValidationAlgorithm}
    {signer : SignatureMaker} {octets : Octets}
    (h : (codec.encodeSigning message alg signer).toOctets = .ok octets) :
    octets.length ≤ largestBody := by
  simp only [toOctets_encodeSigning, Result.bind_eq_ok_iff, Result.pure_eq_ok,
    Except.ok.injEq] at h
  obtain ⟨covered, hcovered, signature, -, payload, -, rfl⟩ := h
  obtain ⟨e, part, -, -, rfl⟩ := protectedElements_eq_ok_iff.1 hcovered
  exact Element.length_concat_le_largestBody (Nat.le_refl _)

/-! ### The limit only filters -/

/-- A limit on what is decoded refuses what is longer and leaves the rest as it was. -/
theorem decode_withLimit {octets : Octets} (h : octets.length ≤ unlimited) :
    (codec.withLimit limit).decode octets =
      if limit < octets.length then .error (.messageTooLarge octets.length limit)
      else (codec.withLimit unlimited).decode octets := by
  have hwithin : (codec.withLimit unlimited).checkSize octets.length = .ok () := if_pos h
  unfold decode
  rw [hwithin]
  by_cases hsize : octets.length ≤ limit
  · have hchecked : (codec.withLimit limit).checkSize octets.length = .ok () := if_pos hsize
    rw [hchecked, if_neg (Nat.not_lt.2 hsize)]
    rfl
  · have hrefused : (codec.withLimit limit).checkSize octets.length =
        .error (.messageTooLarge octets.length limit) := if_neg hsize
    rw [hrefused, if_pos (Nat.not_le.1 hsize)]
    rfl

/-- A limit that all octets are within lets them through for a lower one to filter. -/
theorem bind_withinLimit {written : Except Error Octets} (hlimit : largestBody ≤ unlimited)
    (h : ∀ octets, written = .ok octets → octets.length ≤ largestBody) :
    (written >>= (codec.withLimit limit).withinLimit) =
      refuseBeyond limit (written >>= (codec.withLimit unlimited).withinLimit) := by
  cases written with
  | error e => rfl
  | ok octets =>
      have hwithin : octets.length ≤ unlimited := Nat.le_trans (h octets rfl) hlimit
      have hall : (codec.withLimit unlimited).withinLimit octets = .ok octets :=
        withinLimit_eq_ok_iff.2 ⟨hwithin, rfl⟩
      rw [Result.ok_bind, Result.ok_bind, hall, withinLimit_eq]
      rfl

/-- A limit on what is encoded refuses what is longer and leaves the rest as it was. -/
theorem encode_withLimit (hlimit : largestBody ≤ unlimited) (body : PacketBody) :
    (codec.withLimit limit).encode body =
      refuseBeyond limit ((codec.withLimit unlimited).encode body) := by
  rw [encode_eq, encode_eq]
  apply bind_withinLimit hlimit
  intro octets h
  obtain ⟨es, hes, rfl⟩ := Result.map_eq_ok_iff.1 h
  exact length_le_of_bodyElements hes

/-- A limit on what is signed refuses what is longer and leaves the rest as it was. -/
theorem encodeSigned_withLimit (hlimit : largestBody ≤ unlimited) (now : UInt64)
    (message : Message) (signer : SignatureMaker) :
    (codec.withLimit limit).encodeSigned now message signer =
      refuseBeyond limit ((codec.withLimit unlimited).encodeSigned now message signer) := by
  let signingTime := if codec.includeSigningTime then some now else none
  change (signer.validationAlgorithm codec.embedPublicKey signingTime >>= fun alg =>
      (codec.encodeSigning message alg signer).toOctets >>=
        (codec.withLimit limit).withinLimit) =
    refuseBeyond limit (signer.validationAlgorithm codec.embedPublicKey signingTime >>= fun alg =>
      (codec.encodeSigning message alg signer).toOctets >>=
        (codec.withLimit unlimited).withinLimit)
  cases signer.validationAlgorithm codec.embedPublicKey signingTime with
  | error e => rfl
  | ok alg => exact bind_withinLimit hlimit fun octets => length_le_of_encodeSigning

/-! ### A body of the largest size -/

/-- A Content Object with the payload, authenticated with the key. -/
def keyedObject (payload keyId signature : Octets) : PacketBody :=
  { message := .contentObject { payload := some payload }
    validation := some
      { suite := .hmacSha256, keyId := some keyId, publicKey := none, signingTime := none,
        signature := some signature } }

/-- An object with a payload, a key and a signature takes three elements of the sizes that these ask
for. -/
theorem bodyElements_keyedObject (payload keyId signature : Octets)
    (hpayload : Header.width + payload.length ≤ Header.maxLength)
    (hkeyId : Header.width + (Header.width + keyId.length) ≤ Header.maxLength)
    (hsignature : signature.length ≤ Header.maxLength) :
    ∃ es, bodyElements { registry := .shared } (keyedObject payload keyId signature) = .ok es ∧
      (Element.concat es).length =
        (Header.width + (Header.width + payload.length)) +
          (Header.width + (Header.width + (Header.width + keyId.length))) +
            (Header.width + signature.length) := by
  have hobject : (rawConcat [(TlvType.payload, payload)]).length =
      Header.width + payload.length := by
    simp [length_rawElement]
  have hsuite : (rawElement Suite.hmacSha256.tlvType (rawConcat [(TlvType.keyId, keyId)])).length =
      Header.width + (Header.width + keyId.length) := by
    simp [length_rawElement]
  let object : Element := ⟨TlvType.contentObject, _, hobject ▸ hpayload⟩
  let algorithm : Element := ⟨TlvType.validationAlgorithm, _, hsuite ▸ hkeyId⟩
  let last : Element := ⟨TlvType.validationPayload, signature, hsignature⟩
  have hmessage : (keyedObject payload keyId signature).message.element .shared =
      Element.make TlvType.contentObject (rawConcat [(TlvType.payload, payload)]) := rfl
  have hvalidation : validationElements { registry := .shared }
      (keyedObject payload keyId signature).validation =
        Element.before (Element.make TlvType.validationAlgorithm
            (rawElement Suite.hmacSha256.tlvType (rawConcat [(TlvType.keyId, keyId)])))
          (Element.before (Element.make TlvType.validationPayload signature) (.ok [])) := rfl
  refine ⟨[object, algorithm, last], ?_, ?_⟩
  · rw [bodyElements, hmessage, hvalidation, Element.make_of_fits object.fits,
      Element.make_of_fits algorithm.fits, Element.make_of_fits last.fits]
    rfl
  · simp only [Element.concat_cons, Element.concat_nil, List.append_nil, List.length_append,
      Element.length_octets, Element.size, object, algorithm, last, hobject, hsuite]
    omega

/-- A body all of whose elements are as long as headers can say. -/
def fullBody : PacketBody :=
  keyedObject (List.replicate (Header.maxLength - Header.width) 0)
    (List.replicate (Header.maxLength - 2 * Header.width) 0)
    (List.replicate Header.maxLength 0)

/-- The octets that `fullBody` is written as are read as it again. -/
theorem exists_octets_fullBody :
    ∃ octets, octets.length = largestBody ∧
      (∀ limit, largestBody ≤ limit →
        encode { registry := .shared, limit } fullBody = .ok octets) ∧
      ∀ limit, largestBody ≤ limit → ∃ protectedSize,
        decode { registry := .shared, limit } octets = .ok { body := fullBody, protectedSize } := by
  have hwidths : Header.width = 4 ∧ Header.maxLength = 65535 := ⟨rfl, rfl⟩
  -- Each of the three elements is filled up to the longest value.
  obtain ⟨es, hes, hlength⟩ := bodyElements_keyedObject
    (List.replicate (Header.maxLength - Header.width) 0)
    (List.replicate (Header.maxLength - 2 * Header.width) 0)
    (List.replicate Header.maxLength 0)
    (by rw [List.length_replicate]; omega) (by rw [List.length_replicate]; omega)
    (by rw [List.length_replicate])
  simp only [List.length_replicate] at hlength
  have hsize : (Element.concat es).length = largestBody := by
    rw [hlength, largestBody]
    omega
  have hassigned : fullBody.message.IsAssigned := by
    intro name hname
    cases hname
  have hmade : ∀ alg ∈ fullBody.validation, alg.IsMade := by
    intro alg halg
    cases halg
    rfl
  obtain ⟨-, hspells⟩ := spellsBody_of_bodyElements hassigned hmade hes
  refine ⟨Element.concat es, hsize, ?_, ?_⟩
  · intro limit hlimit
    exact encode_eq_ok_iff.2 ⟨hsize ▸ hlimit, es, hes, rfl⟩
  · intro limit hlimit
    exact ⟨_, decode_eq_ok_iff_spells.2 ⟨hsize ▸ hlimit, hspells⟩⟩

/-- With the limit the codec does what it does without one, but for what is beyond the limit. -/
structure LimitFilters (codec : PacketCodec) (limit : Nat) : Prop where
  decode : ∀ octets unlimited, octets.length ≤ unlimited →
    (codec.withLimit limit).decode octets =
      if limit < octets.length then .error (.messageTooLarge octets.length limit)
      else (codec.withLimit unlimited).decode octets
  encode : ∀ body unlimited, largestBody ≤ unlimited →
    (codec.withLimit limit).encode body =
      refuseBeyond limit ((codec.withLimit unlimited).encode body)
  encodeSigned : ∀ now message signer unlimited, largestBody ≤ unlimited →
    (codec.withLimit limit).encodeSigned now message signer =
      refuseBeyond limit ((codec.withLimit unlimited).encodeSigned now message signer)

/-- The size bounds those of all packet bodies, whatever codec reads or writes them, and it is the
least such bound: every codec with a lower limit says of some body with that size that it is too
large. -/
structure IsLeastBound (size : Nat) : Prop where
  decode_le : ∀ (codec : PacketCodec) octets decoded,
    codec.decode octets = .ok decoded → octets.length ≤ size
  encode_le : ∀ (codec : PacketCodec) body octets,
    codec.encode body = .ok octets → octets.length ≤ size
  encodeSigned_le : ∀ (codec : PacketCodec) now message signer octets,
    codec.encodeSigned now message signer = .ok octets → octets.length ≤ size
  reached : ∃ body octets, octets.length = size ∧
    ∀ limit,
      (size ≤ limit →
        PacketCodec.encode { registry := .shared, limit } body = .ok octets ∧
          ∃ protectedSize, PacketCodec.decode { registry := .shared, limit } octets =
            .ok { body, protectedSize }) ∧
      (limit < size →
        PacketCodec.encode { registry := .shared, limit } body =
            .error (.messageTooLarge size limit) ∧
          PacketCodec.decode { registry := .shared, limit } octets =
            .error (.messageTooLarge size limit))

/-- The codec reads and writes whatever it would with any other limit. -/
structure RefusesNothing (codec : PacketCodec) : Prop where
  decode : ∀ limit octets decoded,
    (codec.withLimit limit).decode octets = .ok decoded → codec.decode octets = .ok decoded
  encode : ∀ limit body octets,
    (codec.withLimit limit).encode body = .ok octets → codec.encode body = .ok octets
  encodeSigned : ∀ limit now message signer octets,
    (codec.withLimit limit).encodeSigned now message signer = .ok octets →
      codec.encodeSigned now message signer = .ok octets

/-- Limits of every codec filter. -/
theorem limitFilters (codec : PacketCodec) (limit : Nat) : codec.LimitFilters limit where
  decode _ _ h := decode_withLimit h
  encode body _ h := encode_withLimit h body
  encodeSigned now message signer _ h := encodeSigned_withLimit h now message signer

/-- What is encoded is no longer than the largest body. -/
theorem length_le_of_encode {body : PacketBody} {octets : Octets}
    (h : codec.encode body = .ok octets) : octets.length ≤ largestBody := by
  obtain ⟨-, es, hes, rfl⟩ := encode_eq_ok_iff.1 h
  exact length_le_of_bodyElements hes

/-- What is encoded and signed is no longer than the largest body. -/
theorem length_le_of_encodeSigned {now : UInt64} {message : Message} {signer : SignatureMaker}
    {octets : Octets} (h : codec.encodeSigned now message signer = .ok octets) :
    octets.length ≤ largestBody := by
  simp only [encodeSigned, Result.bind_eq_ok_iff, withinLimit_eq_ok_iff] at h
  obtain ⟨alg, -, written, hwritten, -, rfl⟩ := h
  exact length_le_of_encodeSigning hwritten

/-- No bound below the size of the largest body would do. -/
theorem isLeastBound_largestBody : IsLeastBound largestBody where
  decode_le _ _ _ := length_le_of_decode
  encode_le _ _ _ := length_le_of_encode
  encodeSigned_le _ _ _ _ _ := length_le_of_encodeSigned
  reached := by
    obtain ⟨octets, hsize, hencode, hdecode⟩ := exists_octets_fullBody
    refine ⟨fullBody, octets, hsize, fun limit => ⟨fun h => ⟨hencode limit h, hdecode limit h⟩, ?_⟩⟩
    intro hlimit
    have hfilters := limitFilters { registry := .shared } limit
    have hbeyond : limit < octets.length := hsize.symm ▸ hlimit
    constructor
    · have hrefused := hfilters.encode fullBody largestBody (Nat.le_refl _)
      have hall : encode (withLimit { registry := .shared } largestBody) fullBody = .ok octets :=
        hencode largestBody (Nat.le_refl _)
      rw [hall, refuseBeyond, if_pos hbeyond, hsize] at hrefused
      exact hrefused
    · have hrefused := hfilters.decode octets octets.length (Nat.le_refl _)
      rw [if_pos hbeyond, hsize] at hrefused
      exact hrefused

/-- What a filter lets through was there before. -/
theorem eq_ok_of_refuseBeyond {written : Except Error Octets} {octets : Octets}
    (h : refuseBeyond limit written = .ok octets) : written = .ok octets := by
  cases written with
  | error e => cases h
  | ok all =>
      simp only [refuseBeyond] at h
      split at h
      · cases h
      · exact h

/-- A limit that the largest body keeps refuses nothing. -/
theorem refusesNothing_of_le (h : largestBody ≤ codec.limit) : codec.RefusesNothing where
  decode limit octets decoded hread := by
    obtain ⟨-, hspells⟩ := decode_eq_ok_iff_spells.1 hread
    exact decode_eq_ok_iff_spells.2 ⟨Nat.le_trans (length_le_of_decode hread) h, hspells⟩
  encode limit body octets hwritten := by
    rw [(codec.limitFilters limit).encode body codec.limit h] at hwritten
    exact eq_ok_of_refuseBeyond hwritten
  encodeSigned limit now message signer octets hwritten := by
    rw [(codec.limitFilters limit).encodeSigned now message signer codec.limit h] at hwritten
    exact eq_ok_of_refuseBeyond hwritten

end PacketCodec

/-- The sizes that a configuration may set are those from a header up to the largest body. -/
theorem LimitsSection.problems_eq_nil_iff {limits : LimitsSection} :
    limits.problems = [] ↔
      Header.width ≤ limits.maxMessageSize ∧ limits.maxMessageSize ≤ largestBody := by
  unfold problems
  by_cases hsmall : limits.maxMessageSize < Header.width
  · simp [hsmall]
  · by_cases hlarge : largestBody < limits.maxMessageSize
    · simp [hsmall, hlarge]
    · simp [hsmall, hlarge, Nat.not_lt.1 hsmall, Nat.not_lt.1 hlarge]

/-- A limit only keeps out what is beyond it, no packet body is beyond the largest limit that a
configuration may set, and some packet body is beyond every lower one. -/
theorem limits_only_filter :
    (∀ (codec : PacketCodec) limit, codec.LimitFilters limit) ∧
      PacketCodec.IsLeastBound largestBody ∧
      ∀ config : Config,
        (config.limits.problems = [] ↔
          Header.width ≤ config.limits.maxMessageSize ∧
            config.limits.maxMessageSize ≤ largestBody) ∧
        (config.limits.maxMessageSize = largestBody →
          ∀ registry, (config.toCodec registry).RefusesNothing) := by
  refine ⟨PacketCodec.limitFilters, PacketCodec.isLeastBound_largestBody, fun config => ⟨?_, ?_⟩⟩
  · exact LimitsSection.problems_eq_nil_iff
  · intro hlimit registry
    exact PacketCodec.refusesNothing_of_le (Nat.le_of_eq hlimit.symm)

/-- The default configuration with the largest limit. -/
def widestConfig : Config := { limits := { maxMessageSize := 196617 } }

/-- A Content Object without fields, with a checksum of the time 7. -/
def stampedObject : Octets :=
  [0, 2, 0, 0, 0, 3, 0, 16, 0, 2, 0, 12, 0, 15, 0, 8, 0, 0, 0, 0, 0, 0, 0, 7, 0, 4, 0, 4,
    232, 35, 198, 40]

theorem refusesNothing_widestConfig :
    let codec := widestConfig.toCodec .shared
    widestConfig.limits.problems = [] ∧ codec.RefusesNothing ∧
      (codec.withLimit 32).encodeSigned 7 (.contentObject {}) Signer.checksum =
        .ok stampedObject ∧
      (codec.withLimit 31).encodeSigned 7 (.contentObject {}) Signer.checksum =
        .error (.messageTooLarge 32 31) ∧
      (codec.withLimit 31).decode stampedObject = .error (.messageTooLarge 32 31) := by
  intro codec
  obtain ⟨hfilters, -, hconfig⟩ := limits_only_filter
  obtain ⟨hproblems, hrefuses⟩ := hconfig widestConfig
  have hsigned : codec.encodeSigned 7 (.contentObject {}) Signer.checksum = .ok stampedObject := by
    change PacketCodec.encodeSigned (widestConfig.toCodec .shared) _ _ _ = _
    decide +kernel
  have hwithin := (hfilters codec 32).encodeSigned 7 (.contentObject {}) Signer.checksum
    codec.limit (by decide)
  have hbeyond := (hfilters codec 31).encodeSigned 7 (.contentObject {}) Signer.checksum
    codec.limit (by decide)
  have hread := (hfilters codec 31).decode stampedObject codec.limit (by decide)
  have hall : (codec.withLimit codec.limit).encodeSigned 7 (.contentObject {}) Signer.checksum =
      .ok stampedObject := hsigned
  rw [hall] at hwithin hbeyond
  exact ⟨hproblems.2 ⟨by decide, by decide⟩, hrefuses rfl .shared, hwithin, hbeyond, hread⟩

end CcnxPacket
