import CcnxPacket.Packet.Codec
import CcnxPacket.Proofs.Spelling.Message

/-!
# What octets spell a packet body

The octets of a packet body are those of one element, its message, or of three: the message, the
section of the validation algorithm and the section of the validation payload. The codec reads
exactly these octets, up to its limit.
-/

namespace CcnxPacket

namespace Element

/-- The element is the section that says how a body is validated, which holds the element of a suite
and nothing else. -/
structure IsAlgorithmSection (registry : Registry) (e : Element) (alg : ValidationAlgorithm) :
    Prop where
  type : e.type = TlvType.validationAlgorithm
  suite : ∃ inner : Element, e.value = inner.octets ∧
    registry.Spells (Tid.validationAlgorithm.element inner.type) inner (.validationAlgorithm alg)

/-- The element is the section that holds the signature. -/
structure IsSignatureSection (registry : Registry) (e : Element) (signature : Octets) : Prop where
  type : e.type = TlvType.validationPayload
  spelled : registry.Spells Tid.validationPayload e (.payload signature)

end Element

/-- The octets are exactly those of the body, and the signature covers the given number of them. -/
inductive SpellsBody (registry : Registry) : Octets → DecodedBody → Prop where
  | unsigned {e : Element} {message : Message} (spelled : e.IsMessage registry message) :
      SpellsBody registry e.octets { body := { message }, protectedSize := e.size }
  | signed {e part payload : Element} {message : Message} {alg : ValidationAlgorithm}
      {signature : Octets} (spelled : e.IsMessage registry message)
      (algorithm : part.IsAlgorithmSection registry alg)
      (signed : payload.IsSignatureSection registry signature) :
      SpellsBody registry (e.octets ++ part.octets ++ payload.octets)
        { body := { message, validation := some (alg.withSignature signature) },
          protectedSize := e.size + part.size }

/-- Only the payload format spells a payload. -/
theorem Registry.spells_payload_iff {registry : Registry} {tid : Tid} {e : Element}
    {octets : Octets} :
    registry.Spells tid e (.payload octets) ↔
      registry.find? tid = some .payload ∧ e.value = octets := by
  constructor
  · intro h
    rcases h with ⟨format, hformat, hspelled⟩
    cases format <;> first | exact ⟨hformat, hspelled⟩ | exact hspelled.elim
  · intro h
    rcases h with ⟨hformat, hvalue⟩
    exact ⟨.payload, hformat, hvalue⟩

/-- Only its own format spells a validation algorithm. -/
theorem Registry.spells_validationAlgorithm_iff {registry : Registry} {tid : Tid} {e : Element}
    {alg : ValidationAlgorithm} :
    registry.Spells tid e (.validationAlgorithm alg) ↔
      registry.find? tid = some .validationAlgorithm ∧ e.IsAlgorithm alg := by
  constructor
  · intro h
    rcases h with ⟨format, hformat, hspelled⟩
    cases format <;> first | exact ⟨hformat, hspelled⟩ | exact hspelled.elim
  · intro h
    rcases h with ⟨hformat, hspelled⟩
    exact ⟨.validationAlgorithm, hformat, hspelled⟩

namespace PacketCodec

variable {codec : PacketCodec} {c next : Cursor}

theorem checkSize_eq_ok_iff {size : Nat} {u : Unit} :
    codec.checkSize size = .ok u ↔ size ≤ codec.limit := by
  unfold checkSize
  split
  · next h => simp [h]
  · next h => simp [h]

/-- The message of a body is read where an element spells it. -/
theorem decodeMessage_eq_ok_iff {message : Message} :
    codec.decodeMessage c = .ok (message, next) ↔
      ∃ e : Element, e.octets <+: c.ahead ∧ e.IsMessage codec.registry message ∧
        next = c.advance e.size := by
  simp only [decodeMessage, Result.bind_eq_ok_iff, Cursor.peekHeader_eq_ok_iff,
    Result.throw_eq_error, Result.pure_eq_ok]
  constructor
  · intro h
    rcases h with ⟨header, hheader, h⟩
    split at h
    · cases h
    · simp only [Result.bind_eq_ok_iff, Except.ok.injEq, Prod.mk.injEq] at h
      obtain ⟨decoded, hdecode, rfl, rfl⟩ := h
      obtain ⟨e, he, ⟨-, hmessage⟩, -, hnext⟩ := (Message.reads_decode _ _).1 hdecode
      exact ⟨e, he, hmessage, hnext⟩
  · intro h
    rcases h with ⟨e, he, hmessage, rfl⟩
    have hkind : MessageKind.ofTlvType? e.header.type = some message.kind := by
      rw [MessageKind.ofTlvType?_eq_some_iff, Message.tlvType_kind, Element.header_type]
      exact hmessage.type.symm
    refine ⟨e.header, Element.header_starts he, ?_⟩
    rw [hkind]
    simp only [Result.bind_eq_ok_iff]
    exact ⟨⟨_, _, _⟩, (Message.reads_decode _ _).2 ⟨e, he, ⟨rfl, hmessage⟩, rfl, rfl⟩, rfl⟩

/-- A suite's element is read exactly when it fills its section. -/
theorem decodeSuite_eq_ok_iff {length : Nat} {alg : ValidationAlgorithm} :
    codec.decodeSuite length c = .ok (alg, next) ↔
      ∃ e : Element, e.octets <+: c.ahead ∧ e.size = length ∧
        codec.registry.Spells (Tid.validationAlgorithm.element e.type) e
          (.validationAlgorithm alg) ∧
        next = c.advance e.size := by
  simp only [decodeSuite, FieldFormat.decode_format, Result.bind_eq_ok_iff,
    Cursor.peekHeader_eq_ok_iff, Result.throw_eq_error, Result.pure_eq_ok]
  constructor
  · intro h
    rcases h with ⟨header, hheader, h⟩
    split at h
    · cases h
    split at h
    · cases h
    split at h
    · cases h
    · next hlong hshort hsuite =>
        simp only [Result.bind_eq_ok_iff, Registry.lookup_eq_ok_iff] at h
        obtain ⟨format, hformat, field, hdecode, h⟩ := h
        split at h
        · cases h
        · next read hread =>
            cases h
            obtain ⟨e, rfl, he, hspelled, -, hnext⟩ :=
              ((format.reads_decode _).eq_ok_iff_of_header hheader).1 hdecode
            rw [Field.validationAlgorithm?_eq_some_iff] at hread
            rw [hread] at hspelled
            rw [Element.elementSize_header] at hlong hshort
            exact ⟨e, he, by omega, ⟨format, hformat, hspelled⟩, hnext⟩
  · intro h
    rcases h with ⟨e, he, rfl, hspelled, rfl⟩
    obtain ⟨hformat, halg⟩ := Registry.spells_validationAlgorithm_iff.1 hspelled
    have hsuite : (Suite.ofTlvType? e.header.type).isNone = false := by
      rw [Element.header_type, Suite.ofTlvType?_eq_some_iff.2 halg.suite.symm]
      rfl
    refine ⟨e.header, Element.header_starts he, ?_⟩
    rw [Element.elementSize_header, if_neg (Nat.lt_irrefl _), if_neg (Nat.lt_irrefl _), hsuite]
    simp only [Bool.false_eq_true, if_false, Result.bind_eq_ok_iff, Registry.lookup_eq_ok_iff]
    exact ⟨_, hformat, ⟨.validationAlgorithm alg, _, _⟩,
      (Format.reads_decode .validationAlgorithm _).2 ⟨e, he, halg, rfl, rfl⟩, rfl⟩

/-- An algorithm section is read where an element contains one that spells the algorithm. -/
theorem decodeAlgorithm_eq_ok_iff {header : Header} {alg : ValidationAlgorithm}
    (hheader : header.octets <+: c.ahead) :
    codec.decodeAlgorithm c = .ok (alg, next) ↔
      ∃ e : Element, e.header = header ∧ e.octets <+: c.ahead ∧
        (∃ inner : Element, e.value = inner.octets ∧
          codec.registry.Spells (Tid.validationAlgorithm.element inner.type) inner
            (.validationAlgorithm alg)) ∧
        next = c.advance e.size := by
  simp only [decodeAlgorithm, Result.bind_eq_ok_iff, Prod.exists, Cursor.readHeader_eq_ok_iff,
    decodeSuite_eq_ok_iff]
  constructor
  · intro h
    rcases h with ⟨read, _, ⟨hread, rfl⟩, inner, hinner, hsize, hspelled, rfl⟩
    have hsame : read = header := Header.eq_of_starts hread hheader
    subst hsame
    have hroom : read.length.toNat ≤ (c.advance Header.width).ahead.length := by
      have := hinner.length_le
      rwa [Element.length_octets, hsize] at this
    obtain ⟨e, rfl, he⟩ := (Cursor.value_ahead_iff hheader).1 hroom
    rw [Element.header_length] at hsize
    rw [Cursor.ahead_of_starts he] at hinner
    have hvalue : e.value = inner.octets := by
      rw [List.prefix_iff_eq_take.1 hinner, Element.length_octets, hsize]
      exact List.take_left.symm
    refine ⟨e, rfl, he, ⟨inner, hvalue, hspelled⟩, ?_⟩
    rw [Cursor.advance_advance, hsize, Element.size]
  · intro h
    rcases h with ⟨e, rfl, he, ⟨inner, hvalue, hspelled⟩, rfl⟩
    have hsize : inner.size = e.value.length := by
      rw [hvalue, Element.length_octets]
    refine ⟨_, _, ⟨hheader, rfl⟩, inner, ?_, ?_, hspelled, ?_⟩
    · rw [Cursor.ahead_of_starts he, hvalue]
      exact List.prefix_append _ _
    · rw [Element.header_length, hsize]
    · rw [Cursor.advance_advance, hsize, Element.size]

/-- There is no algorithm section when nothing is ahead. -/
theorem decodeAlgorithm?_eq_none_iff :
    codec.decodeAlgorithm? c = .ok (none, next) ↔ c.ahead = [] ∧ next = c := by
  unfold decodeAlgorithm?
  split
  · next hend =>
      rw [Cursor.atEnd_iff] at hend
      simp [hend, eq_comm]
  · next hmore =>
      rw [Cursor.atEnd_iff] at hmore
      simp only [hmore, false_and, iff_false, Result.bind_eq_ok_iff, not_exists, not_and]
      intro header _ h
      split at h
      · simp only [Result.bind_eq_ok_iff, Result.pure_eq_ok] at h
        obtain ⟨_, _, h⟩ := h
        cases h
      split at h <;> cases h

theorem decodeAlgorithm?_eq_some_iff {alg : ValidationAlgorithm} :
    codec.decodeAlgorithm? c = .ok (some alg, next) ↔
      ∃ e : Element, e.octets <+: c.ahead ∧ e.IsAlgorithmSection codec.registry alg ∧
        next = c.advance e.size := by
  unfold decodeAlgorithm?
  constructor
  · intro h
    split at h
    · cases h
    simp only [Result.bind_eq_ok_iff, Cursor.peekHeader_eq_ok_iff] at h
    obtain ⟨header, hheader, h⟩ := h
    split at h
    · next htype =>
        simp only [Result.bind_eq_ok_iff, Prod.exists, Result.pure_eq_ok, Except.ok.injEq,
          Prod.mk.injEq, Option.some.injEq] at h
        obtain ⟨read, after, hdecode, rfl, rfl⟩ := h
        obtain ⟨e, rfl, he, hsuite, hnext⟩ := (decodeAlgorithm_eq_ok_iff hheader).1 hdecode
        exact ⟨e, he, ⟨htype, hsuite⟩, hnext⟩
    split at h <;> cases h
  · intro h
    rcases h with ⟨e, he, ⟨htype, hsuite⟩, rfl⟩
    have hheader := Element.header_starts he
    have hmore : ¬c.atEnd := by
      rw [Cursor.atEnd_iff]
      exact Element.ne_nil_of_starts he
    rw [if_neg hmore]
    simp only [Result.bind_eq_ok_iff, Cursor.peekHeader_eq_ok_iff]
    refine ⟨e.header, hheader, ?_⟩
    rw [Element.header_type, if_pos htype]
    simp only [Result.bind_eq_ok_iff, Prod.exists, Result.pure_eq_ok]
    exact ⟨_, _, (decodeAlgorithm_eq_ok_iff hheader).2 ⟨e, rfl, he, hsuite, rfl⟩, rfl⟩

/-- A signature section is read where an element spells it. -/
theorem decodeSignature_eq_ok_iff {signature : Octets} :
    codec.decodeSignature c = .ok (signature, next) ↔
      ∃ e : Element, e.octets <+: c.ahead ∧ e.IsSignatureSection codec.registry signature ∧
        next = c.advance e.size := by
  simp only [decodeSignature, FieldFormat.decode_format]
  constructor
  · intro h
    split at h
    · cases h
    simp only [Result.bind_eq_ok_iff, Cursor.peekHeader_eq_ok_iff] at h
    obtain ⟨header, hheader, h⟩ := h
    split at h
    · cases h
    · next htype =>
        simp only [Result.bind_eq_ok_iff, Registry.lookup_eq_ok_iff] at h
        obtain ⟨format, hformat, field, hdecode, h⟩ := h
        split at h
        · cases h
        · next read hread =>
            cases h
            obtain ⟨e, rfl, he, hspelled, -, hnext⟩ :=
              ((format.reads_decode _).eq_ok_iff_of_header hheader).1 hdecode
            rw [Field.payload?_eq_some_iff] at hread
            rw [hread] at hspelled
            exact ⟨e, he, ⟨not_not.1 htype, format, hformat, hspelled⟩, hnext⟩
  · intro h
    rcases h with ⟨e, he, ⟨htype, hspelled⟩, rfl⟩
    obtain ⟨hformat, hvalue⟩ := Registry.spells_payload_iff.1 hspelled
    have hmore : ¬c.atEnd := by
      rw [Cursor.atEnd_iff]
      exact Element.ne_nil_of_starts he
    rw [if_neg hmore]
    simp only [Result.bind_eq_ok_iff, Cursor.peekHeader_eq_ok_iff]
    refine ⟨e.header, Element.header_starts he, ?_⟩
    rw [Element.header_type, if_neg (not_not.2 htype)]
    simp only [Result.bind_eq_ok_iff, Registry.lookup_eq_ok_iff]
    exact ⟨_, hformat, ⟨.payload signature, _, _⟩,
      (Format.reads_decode .payload _).2 ⟨e, he, hvalue, rfl, rfl⟩, rfl⟩

/-- After a message comes nothing, or its two sections. -/
theorem decodeValidation_eq_ok_iff {message : Message} {decoded : DecodedBody} :
    codec.decodeValidation message c = .ok (decoded, next) ↔
      (c.ahead = [] ∧ decoded = { body := { message }, protectedSize := c.position } ∧ next = c) ∨
      ∃ (part payload : Element) (alg : ValidationAlgorithm) (signature : Octets),
        part.octets ++ payload.octets <+: c.ahead ∧
        part.IsAlgorithmSection codec.registry alg ∧
        payload.IsSignatureSection codec.registry signature ∧
        decoded = { body := { message, validation := some (alg.withSignature signature) },
                    protectedSize := c.position + part.size } ∧
        next = c.advance (part.size + payload.size) := by
  simp only [decodeValidation, Result.bind_eq_ok_iff, Prod.exists]
  constructor
  · intro h
    obtain ⟨alg, after, hdecode, h⟩ := h
    cases alg with
    | none =>
        obtain ⟨hend, rfl⟩ := decodeAlgorithm?_eq_none_iff.1 hdecode
        cases h
        exact .inl ⟨hend, rfl, rfl⟩
    | some alg =>
        obtain ⟨part, hpart, halg, rfl⟩ := decodeAlgorithm?_eq_some_iff.1 hdecode
        simp only [Result.bind_eq_ok_iff, Prod.exists, decodeSignature_eq_ok_iff] at h
        obtain ⟨signature, _, ⟨payload, hpayload, hsignature, rfl⟩, h⟩ := h
        cases h
        refine .inr ⟨part, payload, alg, signature, ?_, halg, hsignature, ?_, ?_⟩
        · exact Cursor.append_starts_iff.2 ⟨hpart, hpayload⟩
        · rw [Cursor.position_advance_size hpart]
        · exact Cursor.advance_advance _ _ _
  · intro h
    rcases h with ⟨hend, rfl, rfl⟩ |
      ⟨part, payload, alg, signature, hboth, halg, hsignature, rfl, rfl⟩
    · exact ⟨none, next, decodeAlgorithm?_eq_none_iff.2 ⟨hend, rfl⟩, rfl⟩
    · obtain ⟨hpart, hpayload⟩ := Cursor.append_starts_iff.1 hboth
      refine ⟨_, _, decodeAlgorithm?_eq_some_iff.2 ⟨part, hpart, halg, rfl⟩, ?_⟩
      simp only [Result.bind_eq_ok_iff, Prod.exists, decodeSignature_eq_ok_iff]
      refine ⟨_, _, ⟨payload, hpayload, hsignature, rfl⟩, ?_⟩
      rw [Cursor.advance_advance, Cursor.position_advance_size hpart]
      rfl

/-- The codec reads exactly the octets that spell a body and are within its limit. -/
theorem decode_eq_ok_iff_spells {octets : Octets} {decoded : DecodedBody} :
    codec.decode octets = .ok decoded ↔
      octets.length ≤ codec.limit ∧ SpellsBody codec.registry octets decoded := by
  simp only [decode, Result.bind_eq_ok_iff, Prod.exists, decodeMessage_eq_ok_iff,
    decodeValidation_eq_ok_iff, Cursor.ahead_ofOctets, Result.throw_eq_error, Result.pure_eq_ok,
    checkSize_eq_ok_iff]
  constructor
  · intro h
    obtain ⟨_, hlimit, message, _, ⟨e, he, hmessage, rfl⟩, read, after, hvalidation, h⟩ := h
    split at h
    · cases h
    · next hend =>
        cases h
        -- Nothing is ahead, so the elements that were read make up all octets.
        have hall : after.ahead = [] := by simpa [Cursor.atEnd_iff] using hend
        refine ⟨hlimit, ?_⟩
        rcases hvalidation with ⟨-, rfl, rfl⟩ |
          ⟨part, payload, alg, signature, hboth, halg, hsignature, rfl, rfl⟩
        · have hoctets : e.octets = octets := by
            apply he.eq_of_length_le
            simpa using hall
          rw [← hoctets, Cursor.position_advance_size (by simp)]
          simpa using SpellsBody.unsigned hmessage
        · have hoctets : e.octets ++ (part.octets ++ payload.octets) = octets := by
            apply (Cursor.append_starts_iff.2 ⟨he, hboth⟩).eq_of_length_le
            simp at hall ⊢
            omega
          rw [← hoctets, ← List.append_assoc, Cursor.position_advance_size (by simp)]
          simpa using SpellsBody.signed hmessage halg hsignature
  · intro h
    obtain ⟨hlimit, hspells⟩ := h
    cases hspells with
    | @unsigned e message hmessage =>
        have hend : ((Cursor.ofOctets e.octets).advance e.size).ahead = [] := by
          simp
        refine ⟨(), hlimit, message, _, ⟨e, List.prefix_rfl, hmessage, rfl⟩, _, _,
          .inl ⟨hend, rfl, rfl⟩, ?_⟩
        rw [Cursor.atEnd_iff.2 hend, Cursor.position_advance_size (by simp)]
        simp
    | @signed e part payload message alg signature hmessage halg hsignature =>
        rw [List.append_assoc] at *
        have hboth : e.octets ++ (part.octets ++ payload.octets) <+:
            (Cursor.ofOctets (e.octets ++ (part.octets ++ payload.octets))).ahead :=
          List.prefix_rfl
        obtain ⟨he, hrest⟩ := Cursor.append_starts_iff.1 hboth
        refine ⟨(), hlimit, message, _, ⟨e, he, hmessage, rfl⟩, _, _,
          .inr ⟨part, payload, alg, signature, hrest, halg, hsignature, rfl, rfl⟩, ?_⟩
        rw [Cursor.advance_advance, Cursor.position_advance_size he]
        simp [Cursor.atEnd, ← Element.length_octets]

end PacketCodec

/-- Octets spell at most one body: a codec whose limit does not matter reads both. -/
theorem SpellsBody.eq_of_spells {registry : Registry} {octets : Octets}
    {decoded other : DecodedBody} (h : SpellsBody registry octets decoded)
    (hother : SpellsBody registry octets other) : decoded = other := by
  let unbounded : PacketCodec := { registry, limit := octets.length }
  have hread : unbounded.decode octets = .ok decoded :=
    PacketCodec.decode_eq_ok_iff_spells.2 ⟨Nat.le_refl _, h⟩
  have hread' : unbounded.decode octets = .ok other :=
    PacketCodec.decode_eq_ok_iff_spells.2 ⟨Nat.le_refl _, hother⟩
  rw [hread] at hread'
  exact Except.ok.inj hread'

end CcnxPacket
