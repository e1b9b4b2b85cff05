import CcnxPacket.Proofs.Grammar.Word
import CcnxPacket.Proofs.Spelling.Packet

/-!
# Packet bodies are the words of the grammar

With the standard formats, the codec accepts exactly the words of the grammar that are within its
limit and returns what they say. The formats are those of the grammar, value by value, and elements
that supply the fields of a message are elements of distinct types that say them.
-/

namespace CcnxPacket

/-! ### The standard formats -/

namespace Registry

/-- The registry finds every standard format. It may know more identifiers. -/
def HasStandard (registry : Registry) : Prop :=
  ∀ entry ∈ standardEntries, registry.find? entry.1 = some entry.2

/-- The shared registry has the standard formats. -/
theorem hasStandard_shared : shared.HasStandard := by
  unfold HasStandard
  simp only [find?, shared]
  decide

/-- In a registered format, elements spell what they spell in the format. -/
theorem spells_iff {registry : Registry} {tid : Tid} {format : Format} {e : Element}
    {field : Field} (h : registry.find? tid = some format) :
    registry.Spells tid e field ↔ format.Spells e field := by
  constructor
  · intro hspells
    obtain ⟨format', hformat', hspelled⟩ := hspells
    rw [h] at hformat'
    cases hformat'
    exact hspelled
  · intro hspelled
    exact ⟨format, h, hspelled⟩

end Registry

namespace Grammar

/-! ### Values -/

/-- The table of segments has the assigned kinds with their types. -/
theorem mem_segmentTypes_iff {type : UInt16} {kind : SegmentKind} :
    (type, kind) ∈ segmentTypes ↔ kind.IsAssigned ∧ type = kind.tlvType := by
  constructor
  · intro h
    simp only [segmentTypes, List.mem_cons, Prod.mk.injEq, List.not_mem_nil, or_false] at h
    rcases h with h | h | h | h | h | h | h | h <;> (obtain ⟨rfl, rfl⟩ := h; decide)
  · intro h
    obtain ⟨hassigned, rfl⟩ := h
    simp only [SegmentKind.IsAssigned, SegmentKind.labelled, List.mem_cons, List.not_mem_nil,
      or_false] at hassigned
    rcases hassigned with rfl | rfl | rfl | rfl | rfl | rfl | rfl | rfl <;> decide

theorem isSegment_iff {e : Element} {segment : Segment} :
    IsSegment e segment ↔ e.IsSegment segment := by
  rw [IsSegment, Element.IsSegment, mem_segmentTypes_iff, and_assoc]

theorem isOctets_iff (e : Element) (octets : Octets) :
    IsOctets e octets ↔ Format.payload.Spells e (.payload octets) := Iff.rfl

theorem isName_iff (e : Element) (name : Name) :
    IsName e name ↔ Format.name.Spells e (.name name) := by
  have hsame : IsSegment = Element.IsSegment := by
    funext e segment
    exact propext isSegment_iff
  rw [IsName, hsame]
  rfl

theorem isHash_iff (e : Element) (number : UInt64) :
    IsHash e number ↔ Format.hashValue.Spells e (.hashValue number) := by
  rw [IsHash, eq_comm]
  rfl

/-- The table of payload types has the types with their octets. -/
theorem mem_payloadTypes_iff {octet : UInt8} {type : PayloadType} :
    (octet, type) ∈ payloadTypes ↔ octet = type.octet := by
  cases type <;> simp [payloadTypes, PayloadType.octet]

theorem isPayloadType_iff (e : Element) (type : PayloadType) :
    IsPayloadType e type ↔ Format.payloadType.Spells e (.payloadType type) := by
  simp only [IsPayloadType, mem_payloadTypes_iff, exists_eq_left]
  rfl

theorem isTime_iff (e : Element) (number : UInt64) :
    IsTime e number ↔ Format.timestamp.Spells e (.timestamp number) := by
  constructor
  · intro h
    obtain ⟨height, hnumber⟩ := h
    have htime : number = UInt64.ofNat (ofBigEndian e.value) := by
      rw [hnumber]
      simp
    exact (isTimestamp_iff height).2 htime
  · intro h
    have hvalue : e.value = bigEndian timestampWidth number.toNat := h
    rw [IsTime, hvalue]
    constructor
    · exact length_bigEndian _ _
    · exact ofBigEndian_bigEndian_word64 number

/-- The table of suites has the suites with their types. -/
theorem mem_suiteTypes_iff {type : UInt16} {suite : Suite} :
    (type, suite) ∈ suiteTypes ↔ type = suite.tlvType := by
  cases suite <;> simp [suiteTypes, Suite.tlvType]

/-- An algorithm fits its suite when nothing is wrong with it. -/
theorem fits_iff {suite : Suite} {keyId publicKey : Option Octets} :
    Fits suite keyId publicKey ↔
      ValidationAlgorithm.flaw? suite.kind keyId publicKey = none := by
  cases suite <;> cases keyId <;> cases publicKey <;>
    simp [Fits, ValidationAlgorithm.flaw?, Suite.kind]

/-! ### Sequences of elements -/

section
variable {α : Type} {es : List Element} {type : UInt16} {means : Element → α → Prop}
  {value : Option α}

/-- Elements say the same when they are understood alike. -/
theorem says_congr {means' : Element → α → Prop} (h : ∀ e a, means e a ↔ means' e a) :
    Says es type means value ↔ Says es type means' value := by
  cases value <;> simp [Says, h]

/-- Of elements with distinct types, the only one of a type says what those of the type supply. -/
theorem says_iff_supplies (hdistinct : (es.map Element.type).Nodup) :
    Says es type means value ↔ Supplies es type means value := by
  cases value with
  | none => exact supplies_none_iff.symm
  | some a =>
      rw [supplies_some_iff]
      constructor
      · intro h
        obtain ⟨e, he, rfl, hmeans⟩ := h
        exact ⟨e, filter_eq_singleton hdistinct he, hmeans⟩
      · intro h
        obtain ⟨e, hfilter, hmeans⟩ := h
        have he : e ∈ es.filter fun e => e.type = type := by simp [hfilter]
        obtain ⟨hmem, htype⟩ := List.mem_filter.1 he
        exact ⟨e, hmem, by simpa using htype, hmeans⟩

end

/-- Elements that supply a value, or none, for each of their types have distinct types. -/
theorem distinct_of_supplies {β : Type} {types : List UInt16} {es : List Element}
    {means : UInt16 → Element → β → Prop} {values : UInt16 → Option β}
    (hknown : ∀ e ∈ es, e.type ∈ types)
    (hsupplies : ∀ type ∈ types, Supplies es type (means type) (values type)) :
    (es.map Element.type).Nodup := by
  apply nodup_of_length_filter_le
  intro type
  by_cases htype : type ∈ types
  · exact (hsupplies type htype).length_filter_le
  · have hnone : (es.filter fun e => e.type = type) = [] := by
      rw [List.filter_eq_nil_iff]
      intro e he heq
      have hsame : e.type = type := by simpa using heq
      exact htype (hsame ▸ hknown e he)
    simp [hnone]

/-! ### Messages -/

section
variable {registry : Registry} {e : Element} {es : List Element}

/-- What a message's elements say of a field is what they supply in the field's format. -/
theorem says_iff_supplies_field {α : Type} {tid : Tid} {format : Format} {type : UInt16}
    {means : Element → α → Prop} {inject : α → Field} {value : Option α}
    (hdistinct : (es.map Element.type).Nodup) (hformat : registry.find? tid = some format)
    (hmeans : ∀ e a, means e a ↔ format.Spells e (inject a)) :
    Says es type means value ↔ Supplies es type (registry.Spells tid) (value.map inject) := by
  rw [supplies_map_iff, ← says_iff_supplies hdistinct]
  apply says_congr
  intro e a
  rw [hmeans, Registry.spells_iff hformat]

/-- An Interest says its four fields. -/
theorem says_interest_iff (hstandard : registry.HasStandard)
    (hdistinct : (es.map Element.type).Nodup) {interest : Interest} :
    (∀ type ∈ MessageKind.interest.fieldTypes,
      Supplies es type (registry.Spells (Tid.interest.element type))
        (interest.fields.lookup type)) ↔
      Says es 0 IsName (some interest.name) ∧ Says es 1 IsOctets interest.payload ∧
        Says es 2 IsHash interest.keyIdRestriction ∧
        Says es 3 IsHash interest.hashRestriction := by
  rw [Message.forall_interestFields_iff fun type =>
    Supplies es type (registry.Spells (Tid.interest.element type))]
  have hname := hstandard (Tid.interest.element TlvType.name, .name) (by decide)
  have hpayload := hstandard (Tid.interest.element TlvType.payload, .payload) (by decide)
  have hkeyIdRestriction := hstandard
    (Tid.interest.element TlvType.keyIdRestriction, .hashValue) (by decide)
  have hhashRestriction := hstandard
    (Tid.interest.element TlvType.hashRestriction, .hashValue) (by decide)
  have hnamed : Says es 0 IsName (some interest.name) ↔ _ :=
    says_iff_supplies_field hdistinct hname isName_iff
  apply and_congr
  · exact hnamed.symm
  apply and_congr
  · exact (says_iff_supplies_field hdistinct hpayload isOctets_iff).symm
  apply and_congr
  · exact (says_iff_supplies_field hdistinct hkeyIdRestriction isHash_iff).symm
  · exact (says_iff_supplies_field hdistinct hhashRestriction isHash_iff).symm

/-- A Content Object says its four fields. -/
theorem says_contentObject_iff (hstandard : registry.HasStandard)
    (hdistinct : (es.map Element.type).Nodup) {object : ContentObject} :
    (∀ type ∈ MessageKind.contentObject.fieldTypes,
      Supplies es type (registry.Spells (Tid.contentObject.element type))
        (object.fields.lookup type)) ↔
      Says es 0 IsName object.name ∧ Says es 1 IsOctets object.payload ∧
        Says es 5 IsPayloadType object.payloadType ∧ Says es 6 IsTime object.expiry := by
  rw [Message.forall_contentObjectFields_iff fun type =>
    Supplies es type (registry.Spells (Tid.contentObject.element type))]
  have hname := hstandard (Tid.contentObject.element TlvType.name, .name) (by decide)
  have hpayload := hstandard (Tid.contentObject.element TlvType.payload, .payload) (by decide)
  have hpayloadType := hstandard
    (Tid.contentObject.element TlvType.payloadType, .payloadType) (by decide)
  have hexpiry := hstandard (Tid.contentObject.element TlvType.expiry, .timestamp) (by decide)
  apply and_congr
  · exact (says_iff_supplies_field hdistinct hname isName_iff).symm
  apply and_congr
  · exact (says_iff_supplies_field hdistinct hpayload isOctets_iff).symm
  apply and_congr
  · exact (says_iff_supplies_field hdistinct hpayloadType isPayloadType_iff).symm
  · exact (says_iff_supplies_field hdistinct hexpiry isTime_iff).symm

/-- The words of messages are the elements that spell them. -/
theorem isMessage_iff (hstandard : registry.HasStandard) {message : Message} :
    IsMessage e message ↔ e.IsMessage registry message := by
  constructor
  · intro h
    cases h with
    | @interest interest es h =>
        obtain ⟨htype, ⟨hvalue, hdistinct, hknown⟩, hname, hpayload, hkeyId, hhash⟩ := h
        exact ⟨htype, es, hvalue, hknown,
          (says_interest_iff hstandard hdistinct).2 ⟨hname, hpayload, hkeyId, hhash⟩⟩
    | @contentObject object es h =>
        obtain ⟨htype, ⟨hvalue, hdistinct, hknown⟩, hname, hpayload, hkind, hexpiry⟩ := h
        exact ⟨htype, es, hvalue, hknown,
          (says_contentObject_iff hstandard hdistinct).2 ⟨hname, hpayload, hkind, hexpiry⟩⟩
  · intro h
    obtain ⟨htype, es, hvalue, hknown, hsupplies⟩ := h
    have hdistinct := distinct_of_supplies hknown hsupplies
    cases message with
    | interest interest =>
        obtain ⟨hname, hpayload, hkeyId, hhash⟩ :=
          (says_interest_iff hstandard hdistinct).1 hsupplies
        exact .interest ⟨htype, ⟨hvalue, hdistinct, hknown⟩, hname, hpayload, hkeyId, hhash⟩
    | contentObject object =>
        obtain ⟨hname, hpayload, hkind, hexpiry⟩ :=
          (says_contentObject_iff hstandard hdistinct).1 hsupplies
        exact .contentObject
          ⟨htype, ⟨hvalue, hdistinct, hknown⟩, hname, hpayload, hkind, hexpiry⟩

end

/-! ### Validation -/

/-- An algorithm says its three parts. -/
theorem says_parts_iff {es : List Element} (hdistinct : (es.map Element.type).Nodup)
    {alg : ValidationAlgorithm} :
    (∀ type ∈ ValidationAlgorithm.partTypes,
      Supplies es type Element.IsPayload (alg.parts.part? type)) ↔
      Says es 9 IsOctets alg.keyId ∧ Says es 11 IsOctets alg.publicKey ∧
        Says es 15 IsTime alg.signingTime := by
  have hkeyId : Supplies es TlvType.keyId Element.IsPayload (alg.parts.part? TlvType.keyId) ↔
      Says es 9 IsOctets alg.keyId :=
    (says_iff_supplies hdistinct).symm
  have hpublicKey : Supplies es TlvType.publicKey Element.IsPayload
      (alg.parts.part? TlvType.publicKey) ↔ Says es 11 IsOctets alg.publicKey :=
    (says_iff_supplies hdistinct).symm
  have hsigningTime : Supplies es TlvType.signingTime Element.IsPayload
      (alg.parts.part? TlvType.signingTime) ↔ Says es 15 IsTime alg.signingTime := by
    rw [ValidationAlgorithm.Parts.part?_signingTime, supplies_map_iff,
      ← says_iff_supplies hdistinct]
    apply says_congr
    intro e time
    rw [isTime_iff]
    rfl
  simp only [ValidationAlgorithm.partTypes, List.forall_mem_cons, hkeyId, hpublicKey,
    hsigningTime]
  simp

/-- The words of algorithms are the elements that spell them. -/
theorem isAlgorithm_iff {e : Element} {alg : ValidationAlgorithm} :
    (∃ es, IsAlgorithm e alg es) ↔ e.IsAlgorithm alg := by
  constructor
  · intro h
    obtain ⟨es, hsuite, ⟨hvalue, hdistinct, hknown⟩, hkeyId, hpublicKey, htime, hfits,
      hunsigned⟩ := h
    have hmade := ValidationAlgorithm.isMade_iff.2 (fits_iff.1 hfits)
    exact ⟨mem_suiteTypes_iff.1 hsuite, hmade, hunsigned, es, hvalue, hknown,
      (says_parts_iff hdistinct).2 ⟨hkeyId, hpublicKey, htime⟩⟩
  · intro h
    obtain ⟨hsuite, hmade, hunsigned, es, hvalue, hknown, hsupplies⟩ := h
    have hdistinct := distinct_of_supplies hknown hsupplies
    obtain ⟨hkeyId, hpublicKey, htime⟩ := (says_parts_iff hdistinct).1 hsupplies
    have hfits := fits_iff.2 (ValidationAlgorithm.isMade_iff.1 hmade)
    exact ⟨es, mem_suiteTypes_iff.2 hsuite, ⟨hvalue, hdistinct, hknown⟩, hkeyId, hpublicKey,
      htime, hfits, hunsigned⟩

/-- A suite's element has its suite's type, so the algorithm's format is registered for it. -/
theorem spells_algorithm_iff {registry : Registry} (hstandard : registry.HasStandard)
    {e : Element} {alg : ValidationAlgorithm} :
    registry.Spells (Tid.validationAlgorithm.element e.type) e (.validationAlgorithm alg) ↔
      e.IsAlgorithm alg := by
  rw [Registry.spells_validationAlgorithm_iff]
  apply and_iff_right_of_imp
  intro h
  have hmem : (alg.suite.tid, Format.validationAlgorithm) ∈ Registry.standardEntries := by
    cases alg.suite <;> decide
  rw [h.suite]
  exact hstandard _ hmem

/-! ### Packet bodies -/

/-- What the signature covers is all but the element that holds it. -/
theorem length_covered {e part payload : Element} {signature : Octets}
    (hvalue : payload.value = signature) :
    (e.octets ++ part.octets ++ payload.octets).length - 4 - signature.length =
      e.size + part.size := by
  have hsize : payload.size = 4 + signature.length := Element.size_of_value hvalue
  simp only [List.length_append, Element.length_octets, hsize]
  omega

/-- The words of bodies are the octets that spell them. -/
theorem word_iff_spells {registry : Registry} (hstandard : registry.HasStandard)
    {octets : Octets} {decoded : DecodedBody} :
    Word octets decoded ↔ SpellsBody registry octets decoded := by
  constructor
  · intro h
    cases h with
    | unsigned hframing hmessage =>
        subst hframing
        rw [Element.length_octets]
        exact .unsigned ((isMessage_iff hstandard).1 hmessage)
    | signed hframing hmessage htype hvalue halg hpayloadType hpayloadValue =>
        subst hframing
        have hpayload := hstandard (Tid.validationPayload, .payload) (by decide)
        have hsuite := (spells_algorithm_iff hstandard).2 (isAlgorithm_iff.1 ⟨_, halg⟩)
        rw [length_covered hpayloadValue]
        exact .signed ((isMessage_iff hstandard).1 hmessage) ⟨htype, _, hvalue, hsuite⟩
          ⟨hpayloadType, Registry.spells_payload_iff.2 ⟨hpayload, hpayloadValue⟩⟩
  · intro h
    cases h with
    | @unsigned e message hmessage =>
        have hword := Word.unsigned rfl ((isMessage_iff hstandard).2 hmessage)
        rwa [Element.length_octets] at hword
    | @signed e part payload message alg signature hmessage hpart hpayload =>
        obtain ⟨htype, inner, hvalue, hspells⟩ := hpart
        obtain ⟨hpayloadType, hsigned⟩ := hpayload
        obtain ⟨-, hpayloadValue⟩ := Registry.spells_payload_iff.1 hsigned
        obtain ⟨es, halg⟩ := isAlgorithm_iff.2 ((spells_algorithm_iff hstandard).1 hspells)
        have hword := Word.signed rfl ((isMessage_iff hstandard).2 hmessage) htype hvalue halg
          hpayloadType hpayloadValue
        rwa [length_covered hpayloadValue] at hword

/-- With the standard formats, the codec accepts exactly the words within its limit, and returns the
one body and the one covered region that the word says. -/
theorem decode_eq_ok_iff_word {codec : PacketCodec} (hstandard : codec.registry.HasStandard)
    (octets : Octets) (decoded : DecodedBody) :
    (codec.decode octets = .ok decoded ↔ octets.length ≤ codec.limit ∧ Word octets decoded) ∧
      (Word octets decoded → ∀ other, Word octets other → other = decoded) := by
  have hiff : ∀ (codec : PacketCodec) (decoded : DecodedBody), codec.registry.HasStandard →
      (codec.decode octets = .ok decoded ↔
        octets.length ≤ codec.limit ∧ Word octets decoded) := by
    intro codec decoded hstandard
    rw [PacketCodec.decode_eq_ok_iff_spells, word_iff_spells hstandard]
  refine ⟨hiff codec decoded hstandard, ?_⟩
  intro hword other hother
  -- A codec without a limit that matters reads both words, and reads only one body.
  let unbounded : PacketCodec := { codec with limit := octets.length }
  have hread := (hiff unbounded decoded hstandard).2 ⟨Nat.le_refl _, hword⟩
  have hread' := (hiff unbounded other hstandard).2 ⟨Nat.le_refl _, hother⟩
  rw [hread] at hread'
  cases hread'
  rfl

/-- An Interest named by one segment, with a two-octet signature of the checksum suite. -/
def shortInterest : Octets :=
  [0, 1, 0, 9, 0, 0, 0, 5, 0, 1, 0, 1, 97, 0, 3, 0, 4, 0, 2, 0, 0, 0, 4, 0, 2, 1, 2]

/-- What `shortInterest` says. -/
def readShortInterest : DecodedBody :=
  { body :=
      { message := .interest { name := ⟨[⟨.name, [97]⟩]⟩ }
        validation := some (ValidationAlgorithm.checksum.withSignature [1, 2]) }
    protectedSize := 21 }

theorem word_shortInterest :
    Registry.shared.HasStandard ∧
      PacketCodec.decode { registry := .shared } shortInterest = .ok readShortInterest ∧
      Word shortInterest readShortInterest := by
  have hdecode : PacketCodec.decode { registry := .shared } shortInterest =
      .ok readShortInterest := by
    decide +kernel
  have hiff : (PacketCodec.decode { registry := .shared } shortInterest =
      .ok readShortInterest ↔ _) ∧ _ :=
    decode_eq_ok_iff_word Registry.hasStandard_shared shortInterest readShortInterest
  exact ⟨Registry.hasStandard_shared, hdecode, (hiff.1.1 hdecode).2⟩

end Grammar

end CcnxPacket
