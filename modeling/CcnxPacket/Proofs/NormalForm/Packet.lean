import CcnxPacket.Proofs.NormalForm.Framing
import CcnxPacket.Proofs.NormalForm.Message
import CcnxPacket.Proofs.RoundTrip

/-!
# The normal form of a packet body

A packet body that was read is written again as its normal form, if that is not too large: the
message in its normal form, and its sections with the parts of the suite in the encoder's order.
The normal form is read as the same body and is its own normal form. The sections keep their size,
so a body grows or shrinks as its message does. Only the restrictions of an Interest can make it
too large.
-/

namespace CcnxPacket

namespace Element

variable {e : Element} {value : Octets}

/-- The element with another value of the same length. -/
def withValue (e : Element) (value : Octets) (h : value.length = e.value.length) : Element :=
  ⟨e.type, value, h ▸ e.fits⟩

theorem size_withValue (h : value.length = e.value.length) :
    (e.withValue value h).size = e.size := by
  rw [size, size, withValue, h]

theorem withValue_eq_self_iff (h : value.length = e.value.length) :
    e.withValue value h = e ↔ value = e.value := by
  simp [withValue, Element.ext_iff]

end Element

namespace ValidationAlgorithm

variable {alg : ValidationAlgorithm} {e : Element} {es : List Element}

/-- The only elements in the value of a suite's element are the parts of the algorithm. -/
theorem supplies_of_isAlgorithm (h : e.IsAlgorithm alg) (hvalue : e.value = Element.concat es) :
    (∀ part ∈ es, part.type ∈ partTypes) ∧
      ∀ type ∈ partTypes, Supplies es type Element.IsPayload (alg.parts.part? type) := by
  obtain ⟨parts, hparts, hsupplies⟩ := h.parts
  rwa [Element.concat_injective (hvalue.symm.trans hparts)]

/-- The parts of an algorithm that was read are written in order, each as it came. -/
theorem rawConcat_wireParts_of_isAlgorithm (h : e.IsAlgorithm alg)
    (hvalue : e.value = Element.concat es) :
    rawConcat alg.wireParts = Element.concat (Element.arrange partTypes es) := by
  obtain ⟨-, hsupplies⟩ := supplies_of_isAlgorithm h hvalue
  have hall := Element.forall₂_arrange (fun _ => Element.IsPayload) nodup_partTypes
    alg.types_wireParts_sublist fun type htype => by
      rw [lookup_wireParts]
      exact hsupplies type htype
  have hparts : (Element.arrange partTypes es).map Element.typed = alg.wireParts := by
    rw [← List.forall₂_eq_eq_eq, List.forall₂_map_left_iff]
    exact hall.imp fun e part hpart => Prod.ext hpart.1 hpart.2
  rw [← hparts, Element.rawConcat_map_typed]

/-- The parts of an algorithm that was read can be put in order. -/
theorem arrange_parts (h : e.IsAlgorithm alg) (hvalue : e.value = Element.concat es) :
    (Element.arrange partTypes es).Perm es ∧
      (Element.arrange partTypes es = es ↔ (es.map Element.type).Sublist partTypes) := by
  obtain ⟨hknown, hsupplies⟩ := supplies_of_isAlgorithm h hvalue
  have hdistinct : (es.map Element.type).Nodup :=
    Grammar.distinct_of_supplies hknown hsupplies
  have hid : ∀ e : Element, (id e).type = e.type := fun _ => rfl
  have hsame := Element.map_arrange_eq_self_iff hid nodup_partTypes hdistinct
  simp only [List.map_id_fun, id_eq, implies_true, and_true] at hsame
  exact ⟨Element.arrange_perm nodup_partTypes hdistinct hknown, hsame⟩

end ValidationAlgorithm

namespace PacketCodec

variable {codec : PacketCodec} {alg : ValidationAlgorithm} {signature : Octets}

/-- The section of an algorithm that was read is written with the same size, and as it was exactly
when its parts are in order. -/
theorem algorithmSection_of_suite {sections : Sections}
    (htype : sections.algorithm.type = TlvType.validationAlgorithm)
    (hsuite : codec.registry.Spells
      (Tid.validationAlgorithm.element sections.suite.element.type) sections.suite.element
      (.validationAlgorithm alg)) :
    ∃ part, codec.algorithmSection (alg.withSignature signature) = .ok part ∧
      part.size = sections.algorithm.size ∧
      (part = sections.algorithm ↔
        (sections.suite.parts.map Element.type).Sublist ValidationAlgorithm.partTypes) := by
  obtain ⟨hformat, halg⟩ := Registry.spells_validationAlgorithm_iff.1 hsuite
  obtain ⟨hperm, hordered⟩ := ValidationAlgorithm.arrange_parts halg sections.suite.holds
  have hraw := ValidationAlgorithm.rawConcat_wireParts_of_isAlgorithm halg sections.suite.holds
  have hlength : (rawConcat alg.wireParts).length = sections.suite.element.value.length := by
    rw [hraw, Element.length_concat_of_perm hperm, ← sections.suite.holds]
  let suite := sections.suite.element.withValue (rawConcat alg.wireParts) hlength
  have hsize : suite.octets.length = sections.algorithm.value.length := by
    rw [sections.holds, Element.length_octets, Element.length_octets, Element.size_withValue]
  refine ⟨sections.algorithm.withValue suite.octets hsize, ?_, Element.size_withValue hsize, ?_⟩
  · have hvalue : Format.validationAlgorithm.valueOf
        (.validationAlgorithm (alg.withSignature signature)) = .ok (rawConcat alg.wireParts) := rfl
    have htlvType : (alg.withSignature signature).suite.tlvType = sections.suite.element.type :=
      halg.suite.symm
    rw [algorithmSection, Suite.tid, htlvType, Registry.lookup_eq_ok_iff.2 hformat,
      Result.ok_bind, hvalue, Result.ok_bind, Element.make_eq_ok_iff]
    exact ⟨htype, rfl⟩
  · rw [Element.withValue_eq_self_iff, sections.holds, Element.octets_injective.eq_iff,
      Element.withValue_eq_self_iff, sections.suite.holds, hraw, Element.concat_injective.eq_iff,
      hordered]

/-- A signature section is written as it was read. -/
theorem signatureSection_of_isSignatureSection {payload : Element}
    (h : payload.IsSignatureSection codec.registry signature) :
    codec.signatureSection signature = .ok payload := by
  obtain ⟨htype, hspelled⟩ := h
  obtain ⟨hformat, hvalue⟩ := Registry.spells_payload_iff.1 hspelled
  have hsignature : Format.payload.valueOf (.payload signature) = .ok signature := rfl
  rw [signatureSection, Registry.lookup_eq_ok_iff.2 hformat, Result.ok_bind, hsignature,
    Result.ok_bind, Element.make_eq_ok_iff]
  exact ⟨htype, hvalue⟩

/-- What follows the message of a body that was read is written with the same size, and as it was
exactly when the parts of the suite are in order. -/
theorem validationElements_of_spells {framing : Framing} {body : PacketBody}
    (h : framing.Spells codec.registry body) :
    ∃ es, codec.validationElements body.validation = .ok es ∧
      (Element.concat es).length = (Element.concat framing.sectionElements).length ∧
      (es = framing.sectionElements ↔
        (framing.validationParts.map Element.type).Sublist ValidationAlgorithm.partTypes) := by
  cases h with
  | unsigned hspelled =>
      refine ⟨[], rfl, rfl, ?_⟩
      simp [Framing.sectionElements, Framing.validationParts]
  | @signed container sections message alg signature hspelled htype hsuite hsigned =>
      obtain ⟨part, hpart, hsize, hsame⟩ := algorithmSection_of_suite htype hsuite
      have hpayload := signatureSection_of_isSignatureSection hsigned
      refine ⟨[part, sections.payload], ?_, ?_, ?_⟩
      · refine Element.before_eq_ok_iff.2 ⟨part, [sections.payload], hpart, ?_, rfl⟩
        exact Element.before_eq_ok_iff.2 ⟨sections.payload, [], hpayload, rfl, rfl⟩
      · simp [Framing.sectionElements, hsize]
      · simp [Framing.sectionElements, Framing.validationParts, hsame]

end PacketCodec

namespace Framing

variable {framing : Framing} {registry : Registry} {body : PacketBody}

/-- The packet body is as it is written for a message of the kind: the fields and the parts of the
suite are in order, and each restriction is eight octets and 24 zeros. -/
structure IsNormal (kind : MessageKind) (framing : Framing) : Prop where
  fields : (framing.fields.map Element.type).Sublist kind.writtenTypes
  parts : (framing.validationParts.map Element.type).Sublist ValidationAlgorithm.partTypes
  restrictions : ∀ e ∈ framing.fields, e.IsRestriction →
    e.value.length = 32 ∧ ∀ octet ∈ e.value.drop hashValueWidth, octet = 0

/-- The fields of a framing are those that its message admits. -/
theorem Spells.admits (hstandard : registry.HasStandard) (h : framing.Spells registry body) :
    body.message.kind.Admits framing.fields :=
  Message.admits_of_isMessage hstandard h.isMessage framing.message.holds

/-- Every algorithm that was read is one that `make` returns. -/
theorem Spells.isMade (h : framing.Spells registry body) :
    ∀ alg ∈ body.validation, alg.IsMade := by
  intro alg halg
  cases h with
  | unsigned _ => cases halg
  | signed _ _ hsuite _ =>
      cases halg
      exact (Registry.spells_validationAlgorithm_iff.1 hsuite).2.made

end Framing

namespace PacketCodec

variable {codec : PacketCodec} {framing : Framing} {body : PacketBody}

/-- A body that was read is written as its message in normal form with sections of the same size. -/
theorem bodyElements_of_spells (hstandard : codec.registry.HasStandard)
    (h : framing.Spells codec.registry body) :
    ∃ es, codec.bodyElements body =
        (Element.make framing.message.element.type
          (Element.concat (body.message.kind.normalForm framing.fields))).map (· :: es) ∧
      (Element.concat es).length = (Element.concat framing.sectionElements).length ∧
      (es = framing.sectionElements ↔
        (framing.validationParts.map Element.type).Sublist ValidationAlgorithm.partTypes) := by
  obtain ⟨es, hes, hlength, hsame⟩ := validationElements_of_spells h
  refine ⟨es, ?_, hlength, hsame⟩
  rw [bodyElements, hes, Element.before_ok,
    Message.element_of_isMessage hstandard h.isMessage framing.message.holds]
  rfl

/-- A body that was read is written as it was exactly when it was in its normal form. -/
theorem bodyElements_eq_ok_iff_isNormal (hstandard : codec.registry.HasStandard)
    (h : framing.Spells codec.registry body) :
    codec.bodyElements body = .ok (framing.message.element :: framing.sectionElements) ↔
      framing.IsNormal body.message.kind := by
  obtain ⟨es, hes, -, hsame⟩ := bodyElements_of_spells hstandard h
  have hfields := MessageKind.normalForm_eq_self_iff (h.admits hstandard)
  simp only [Element.normal_eq_self_iff] at hfields
  have hvalue : framing.message.element.value =
      Element.concat (body.message.kind.normalForm framing.fields) ↔
        body.message.kind.normalForm framing.fields = framing.fields := by
    rw [framing.message.holds, Element.concat_injective.eq_iff, eq_comm]
    rfl
  simp only [hes, Result.map_eq_ok_iff, List.cons.injEq, Element.make_eq_ok_iff]
  constructor
  · intro hwritten
    obtain ⟨e, ⟨-, hwritten⟩, rfl, hsections⟩ := hwritten
    obtain ⟨hordered, hrestrictions⟩ := hfields.1 (hvalue.1 hwritten)
    exact ⟨hordered, hsame.1 hsections, hrestrictions⟩
  · intro hnormal
    obtain ⟨hordered, hparts, hrestrictions⟩ := hnormal
    exact ⟨_, ⟨rfl, hvalue.2 (hfields.2 ⟨hordered, hrestrictions⟩)⟩, rfl, hsame.2 hparts⟩

/-- A body that was read is written with the size that it had, plus what its restrictions lack of 32
octets each: it is too large if the header of its message cannot hold the length, or if the limit
does not allow the size. Otherwise what is written is read as the same body, and is written again as
it is. The octets that were read are what is written exactly if they are in normal form. A Content
Object keeps its size, and is never too large. -/
theorem encode_decoded_body (codec : PacketCodec) (hstandard : codec.registry.HasStandard)
    {octets : Octets} {decoded : DecodedBody} (h : codec.decode octets = .ok decoded) :
    ∃ (framing : Framing) (length : Nat) (written : Octets),
      framing.octets = octets ∧ (∀ other : Framing, other.octets = octets → other = framing) ∧
      (length : Int) = Header.declaredLength octets + Element.deficit framing.fields ∧
      (written.length : Int) = octets.length + Element.deficit framing.fields ∧
      codec.encode decoded.body =
        (if Header.maxLength < length then .error (.messageTooLarge length Header.maxLength)
        else if codec.limit < written.length then
          .error (.messageTooLarge written.length codec.limit)
        else .ok written) ∧
      (codec.encode decoded.body = .ok written →
        ∃ reread, codec.decode written = .ok reread ∧ reread.body = decoded.body ∧
          codec.encode reread.body = .ok written) ∧
      (codec.encode decoded.body = .ok octets ↔
        framing.IsNormal decoded.body.message.kind) ∧
      (decoded.body.message.kind = .contentObject →
        Element.deficit framing.fields = 0 ∧ written.length = octets.length ∧
        codec.encode decoded.body = .ok written) := by
  obtain ⟨hlimit, hspellsBody⟩ := decode_eq_ok_iff_spells.1 h
  obtain ⟨framing, rfl, hspells⟩ := Framing.exists_of_spellsBody hspellsBody
  have hadmits := hspells.admits hstandard
  obtain ⟨es, hes, hsections, -⟩ := bodyElements_of_spells hstandard hspells
  -- What is written: the message in normal form, and the sections as they were read.
  let value := Element.concat (decoded.body.message.kind.normalForm framing.fields)
  let written := rawElement framing.message.element.type value ++ Element.concat es
  have hlength : (value.length : Int) =
      Header.declaredLength framing.octets + Element.deficit framing.fields := by
    rw [framing.declaredLength_octets, framing.message.holds]
    exact MessageKind.length_normalForm hadmits
  have hsize : (written.length : Int) =
      framing.octets.length + Element.deficit framing.fields := by
    rw [List.length_append, length_rawElement, hsections, framing.length_octets, Element.size,
      ← framing.declaredLength_octets]
    push_cast
    omega
  have hencode := encode_of_bodyElements hes
  rw [withinLimit_eq] at hencode
  refine ⟨framing, value.length, written, rfl, ?_, hlength, hsize, hencode, ?_, ?_, ?_⟩
  · intro other hother
    exact Framing.octets_injective hother
  · intro hwritten
    obtain ⟨hwithin, es', hes', hconcat⟩ := encode_eq_ok_iff.1 hwritten
    obtain ⟨-, hreread⟩ := spellsBody_of_bodyElements
      (Message.isAssigned_of_isMessage hspells.isMessage) hspells.isMade hes'
    rw [← hconcat] at hreread
    exact ⟨_, decode_eq_ok_iff_spells.2 ⟨hwithin, hreread⟩, rfl, hwritten⟩
  · rw [encode_eq_ok_iff, ← bodyElements_eq_ok_iff_isNormal hstandard hspells]
    constructor
    · intro hkept
      obtain ⟨-, es', hes', hconcat⟩ := hkept
      rwa [Element.concat_injective hconcat]
    · intro hkept
      exact ⟨hlimit, _, hkept, rfl⟩
  · intro hkind
    -- A Content Object has no restrictions, so the bounds that held in reading hold in writing.
    have hdeficit : Element.deficit framing.fields = 0 :=
      MessageKind.deficit_contentObject (hkind ▸ hadmits)
    rw [hdeficit] at hlength hsize
    have hfits : value.length ≤ Header.maxLength := by
      have := framing.message.element.fits
      rw [framing.declaredLength_octets] at hlength
      omega
    have hkept : written.length = framing.octets.length := by omega
    have hwithin : ¬codec.limit < written.length := by omega
    refine ⟨hdeficit, hkept, ?_⟩
    rw [hencode, if_neg (Nat.not_lt.2 hfits)]
    exact if_neg hwithin

/-- An Interest with its payload and a restriction of eight octets in front of its name. -/
def nameLast : Octets :=
  [0, 1, 0, 26, 0, 1, 0, 1, 7, 0, 3, 0, 8, 0, 0, 0, 0, 0, 0, 0, 9, 0, 0, 0, 5, 0, 1, 0, 1, 97]

/-- What `nameLast` says. -/
def nameLastBody : PacketBody :=
  { message := .interest
      { name := ⟨[⟨.name, [97]⟩]⟩, payload := some [7], hashRestriction := some 9 } }

/-- The normal form of `nameLast`. -/
def nameFirst : Octets :=
  [0, 1, 0, 50, 0, 0, 0, 5, 0, 1, 0, 1, 97, 0, 3, 0, 32, 0, 0, 0, 0, 0, 0, 0, 9] ++
    List.replicate 24 0 ++ [0, 1, 0, 1, 7]

theorem encode_nameLastBody :
    Registry.shared.HasStandard ∧
      decode { registry := .shared } nameLast =
        .ok { body := nameLastBody, protectedSize := 30 } ∧
      encode { registry := .shared } nameLastBody = .ok nameFirst ∧
      ∃ framing : Framing, framing.octets = nameLast ∧ Element.deficit framing.fields = 24 ∧
        ¬framing.IsNormal .interest := by
  have hdecode : decode { registry := .shared } nameLast =
      .ok { body := nameLastBody, protectedSize := 30 } := by
    decide +kernel
  have hencode : encode { registry := .shared } nameLastBody = .ok nameFirst := by
    decide +kernel
  refine ⟨Registry.hasStandard_shared, hdecode, hencode, ?_⟩
  obtain ⟨framing, length, written, hframing, -, -, hsize, hwritten, -, hnormal, -⟩ :=
    encode_decoded_body { registry := .shared } Registry.hasStandard_shared hdecode
  rw [hencode] at hwritten hnormal
  refine ⟨framing, hframing, ?_, ?_⟩
  · split at hwritten
    · cases hwritten
    split at hwritten
    · cases hwritten
    · cases hwritten
      have hread : nameLast.length = 30 := rfl
      have hwrote : nameFirst.length = 54 := rfl
      omega
  · intro h
    have hsame := Except.ok.inj (hnormal.2 h)
    exact absurd hsame (by decide)

end PacketCodec

end CcnxPacket
