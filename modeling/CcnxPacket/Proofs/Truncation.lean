import CcnxPacket.Proofs.Spelling.Packet

/-!
# Packet bodies cut short

A packet body is one element or three, and its octets determine them. Of the strict prefixes of a
packet body only one can be a packet body: that of a signed body which ends with the message. It is
the same message, without validation.
-/

namespace CcnxPacket

namespace SpellsBody

variable {registry : Registry} {octets cut : Octets} {decoded decodedCut : DecodedBody}

/-- A packet body is its message alone, or its message in front of two sections. -/
theorem exists_elements (h : SpellsBody registry octets decoded) :
    ∃ (e : Element) (sections : List Element), octets = Element.concat (e :: sections) ∧
      e.IsMessage registry decoded.body.message ∧
      ((sections = [] ∧ decoded.body.isSigned = false) ∨
        (sections.length = 2 ∧ decoded.body.isSigned = true)) := by
  cases h with
  | @unsigned e message hmessage => exact ⟨e, [], by simp, hmessage, .inl ⟨rfl, rfl⟩⟩
  | @signed e part payload message alg signature hmessage _ _ =>
      exact ⟨e, [part, payload], by simp, hmessage, .inr ⟨rfl, rfl⟩⟩

/-- A strict prefix of a packet body is a packet body exactly when it is the message of a signed
one. -/
theorem cut_iff (h : SpellsBody registry octets decoded) (hstarts : cut <+: octets)
    (hstrict : cut ≠ octets) :
    SpellsBody registry cut decodedCut ↔
      decoded.body.isSigned = true ∧
        cut.length = Header.width + Header.declaredLength octets ∧
        decodedCut =
          { body := { message := decoded.body.message }, protectedSize := cut.length } := by
  obtain ⟨e, sections, rfl, hmessage, hsections⟩ := h.exists_elements
  have he : e.octets <+: Element.concat (e :: sections) := List.prefix_append _ _
  have hdeclared : Header.declaredLength (Element.concat (e :: sections)) = e.value.length := by
    rw [Header.declaredLength_of_starts (Element.header_starts he), Element.header_length]
  have halone : SpellsBody registry e.octets
      { body := { message := decoded.body.message }, protectedSize := e.octets.length } := by
    rw [Element.length_octets]
    exact .unsigned hmessage
  rw [hdeclared]
  constructor
  · intro hcut
    obtain ⟨e', sections', rfl, -, hsections'⟩ := hcut.exists_elements
    obtain ⟨rfl, hrest⟩ := List.cons_prefix_cons.1 (Element.starts_of_concat_starts hstarts)
    -- Two of the two sections would be all of them.
    have hfewer : sections'.length ≠ sections.length := by
      intro hlength
      exact hstrict (by rw [hrest.eq_of_length hlength])
    have hlength := hrest.length_le
    rcases hsections with ⟨rfl, -⟩ | ⟨htwo, hsigned⟩
    · exact absurd (Nat.le_zero.1 hlength) hfewer
    · rcases hsections' with ⟨rfl, -⟩ | ⟨htwo', -⟩
      · rw [Element.concat_cons, Element.concat_nil, List.append_nil] at hcut ⊢
        exact ⟨hsigned, by rw [Element.length_octets, Element.size], hcut.eq_of_spells halone⟩
      · exact absurd (htwo'.trans htwo.symm) hfewer
  · intro hcut
    obtain ⟨-, hsize, rfl⟩ := hcut
    have hmessageOnly : cut = e.octets := by
      rw [List.prefix_iff_eq_take.1 hstarts, List.prefix_iff_eq_take.1 he, hsize,
        Element.length_octets, Element.size]
    rwa [hmessageOnly]

end SpellsBody

namespace PacketCodec

/-- Of the strict prefixes of a packet body, the codec reads only that of a signed body which ends
with the message, and reads it as the message without validation. -/
theorem decode_cut (codec : PacketCodec) {octets cut : Octets} {decoded : DecodedBody}
    (h : codec.decode octets = .ok decoded) (hstarts : cut <+: octets) (hstrict : cut ≠ octets) :
    ((∃ decodedCut, codec.decode cut = .ok decodedCut) ↔
      decoded.body.isSigned = true ∧
        cut.length = Header.width + Header.declaredLength octets) ∧
    ∀ decodedCut, codec.decode cut = .ok decodedCut →
      decodedCut =
        { body := { message := decoded.body.message }, protectedSize := cut.length } := by
  obtain ⟨hlimit, hspells⟩ := decode_eq_ok_iff_spells.1 h
  have hcutLimit : cut.length ≤ codec.limit := Nat.le_trans hstarts.length_le hlimit
  simp only [decode_eq_ok_iff_spells, hcutLimit, true_and, hspells.cut_iff hstarts hstrict]
  constructor
  · constructor
    · intro hread
      obtain ⟨decodedCut, hsigned, hlength, -⟩ := hread
      exact ⟨hsigned, hlength⟩
    · intro hmessage
      obtain ⟨hsigned, hlength⟩ := hmessage
      exact ⟨_, hsigned, hlength, rfl⟩
  · intro decodedCut hread
    exact hread.2.2

/-- A signed Content Object without fields. -/
def signedNameless : Octets := [0, 2, 0, 0, 0, 3, 0, 4, 0, 2, 0, 0, 0, 4, 0, 2, 1, 2]

theorem decode_cut_signedNameless :
    decode { registry := .shared } signedNameless =
        .ok { body :=
                { message := .contentObject {}
                  validation := some (ValidationAlgorithm.checksum.withSignature [1, 2]) }
              protectedSize := 12 } ∧
      [0, 2, 0, 0] <+: signedNameless ∧ [0, 2, 0, 0] ≠ signedNameless ∧
      decode { registry := .shared } [0, 2, 0, 0] =
        .ok { body := { message := .contentObject {} }, protectedSize := 4 } := by
  have hdecode : decode { registry := .shared } signedNameless =
      .ok { body :=
              { message := .contentObject {}
                validation := some (ValidationAlgorithm.checksum.withSignature [1, 2]) }
            protectedSize := 12 } := by
    decide +kernel
  have hstarts : [0, 2, 0, 0] <+: signedNameless := by decide
  have hstrict : [0, 2, 0, 0] ≠ signedNameless := by decide
  obtain ⟨hiff, hcut⟩ := decode_cut { registry := .shared } hdecode hstarts hstrict
  obtain ⟨decodedCut, hread⟩ := hiff.2 ⟨rfl, rfl⟩
  refine ⟨hdecode, hstarts, hstrict, ?_⟩
  rw [hread, hcut decodedCut hread]
  rfl

end PacketCodec

end CcnxPacket
