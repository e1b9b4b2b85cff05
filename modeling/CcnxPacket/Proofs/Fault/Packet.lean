import CcnxPacket.Proofs.Fault.Field
import CcnxPacket.Proofs.Grammar.Recognition

/-!
# How reading packet bodies fails

With the standard formats, octets that are no packet body are refused for a reason that lies in
them, and the failure points at it. No format is missing then, and none returns a field of another
kind than the one that belongs there.
-/

namespace CcnxPacket

variable {codec : PacketCodec} {registry : Registry} {octets : Octets} {c : Cursor}

/-! ### Fields of the right kind -/

/-- What spells a field spells one of its own format. -/
theorem Format.format_of_spells {format : Format} {e : Element} {field : Field}
    (h : format.Spells e field) : field.format = format := by
  cases format <;> cases field <;> first | rfl | exact h.elim

namespace Field

variable (field : Field)

theorem isSome_name? : field.name?.isSome = decide (field.format = .name) := by
  cases field <;> rfl

theorem isSome_hashValue? : field.hashValue?.isSome = decide (field.format = .hashValue) := by
  cases field <;> rfl

theorem isSome_payload? : field.payload?.isSome = decide (field.format = .payload) := by
  cases field <;> rfl

theorem isSome_payloadType? : field.payloadType?.isSome = decide (field.format = .payloadType) := by
  cases field <;> rfl

theorem isSome_timestamp? : field.timestamp?.isSome = decide (field.format = .timestamp) := by
  cases field <;> rfl

end Field

/-- The standard formats of the fields of a message: only the name is one of names. -/
theorem Registry.HasStandard.find?_fieldType (hstandard : registry.HasStandard)
    {kind : MessageKind} {type : UInt16} (htype : type ∈ kind.fieldTypes) :
    ∃ format, registry.find? (kind.tid.element type) = some format ∧
      format ≠ .validationAlgorithm ∧ (format = .name → type = TlvType.name) := by
  have hentries : (kind.fieldTypes.all fun type => standardEntries.any fun entry =>
      entry.1 = kind.tid.element type ∧ entry.2 ≠ .validationAlgorithm ∧
        (entry.2 = .name → type = TlvType.name)) = true := by
    cases kind <;> decide
  simp only [List.all_eq_true, List.any_eq_true, decide_eq_true_eq] at hentries
  obtain ⟨entry, hmem, htid, hplain, hname⟩ := hentries type htype
  exact ⟨entry.2, htid ▸ hstandard entry hmem, hplain, hname⟩

/-! ### Messages -/

namespace Message

variable {kind : MessageKind} {es : List Element} {fields : List TypedField}

/-- A field that is there already was read from an element of its type. -/
theorem exists_field_of_folds {type : UInt16} {field : Field}
    (hfolds : Folds (TakesField registry kind) [] es fields)
    (hfield : fields.lookup type = some field) :
    ∃ e ∈ es, e.type = type ∧ registry.Spells (kind.tid.element type) e field := by
  rcases (records_takesField registry kind).slot_of_folds hfolds hfield with hempty | hread
  · cases hempty
  · exact hread

/-- Whatever is wrong with a field of a message is found at the field. -/
theorem failsAtFault_visitField (hstandard : registry.HasStandard) {start length : Nat}
    {header : Header} (h : Place.Reaches octets ⟨.fields kind, start, length⟩ es c)
    (hfolds : Folds (TakesField registry kind) [] es fields) (hheader : header.octets <+: c.ahead) :
    codec.FailsAtFault octets (visitField registry kind fields header c) := by
  unfold visitField
  simp only
  split
  · next hunknown => exact .error (h.pointsAtFault_unknownField hheader hunknown)
  split
  · next hsome =>
      obtain ⟨field, hfield⟩ := Option.isSome_iff_exists.1 hsome
      obtain ⟨e, he, htype, -⟩ := exists_field_of_folds hfolds hfield
      exact .error (h.pointsAtFault_duplicateField hheader ⟨e, he, htype⟩)
  · next hknown _ =>
      obtain ⟨format, hformat, hplain, hname⟩ := hstandard.find?_fieldType (not_not.1 hknown)
      rw [Registry.lookup_eq_ok_iff.2 hformat, Result.ok_bind]
      have hdecode : codec.FailsAtFault octets
          (format.decode (kind.tid.element header.type) c) := by
        cases format with
        | name => exact (Name.failsAtFault_decode h hheader (hname rfl)).map _
        | hashValue => exact (failsAtFault_decodeHashValue h hheader).map _
        | payload => exact (failsAtFault_decodePayload h.isAt).map _
        | payloadType => exact (failsAtFault_decodePayloadType h hheader).map _
        | timestamp => exact (failsAtFault_decodeTimestamp h hheader).map _
        | validationAlgorithm => exact absurd rfl hplain
      exact hdecode.bind fun _ _ => .ok _

/-- A message fits its header, or the octets end too early. -/
theorem failsAtFault_decodeFields (hstandard : registry.HasStandard) {header : Header}
    (hheader : header.octets <+: octets) (htype : header.type = kind.tlvType) :
    codec.FailsAtFault octets (decodeFields registry kind (.ofOctets octets)) := by
  have hvalue := Place.Reaches.fields hheader htype
  rw [decodeFields_eq]
  rw [Cursor.readHeader_eq_ok_iff.2 ⟨hheader, rfl⟩, Result.ok_bind]
  simp only
  rw [if_neg (not_not.2 htype)]
  split
  · next hshort =>
      rw [Bool.not_eq_true', ← Bool.not_eq_true, hasAtLeast_iff, Nat.not_le] at hshort
      exact .error (hvalue.isAt.pointsAtFault_truncated hshort)
  · have hwalk : codec.FailsAtFault octets
        (elements kind.tid header.length.toNat (visitField registry kind) []
          ((Cursor.ofOctets octets).advance Header.width)) :=
      failsAtFault_elements (visits_visitField registry kind) hvalue
        fun hnext hfolds hshown => failsAtFault_visitField hstandard hnext hfolds hshown
    exact hwalk.bind fun _ _ => .ok _

/-- Fields that were read are of the kind that is taken. -/
theorem failsAtFault_takeField {α : Type} {type : UInt16} {format : Format}
    {select : Field → Option α} (hformat : registry.find? (kind.tid.element type) = some format)
    (hselect : ∀ field, (select field).isSome = decide (field.format = format))
    (hfolds : Folds (TakesField registry kind) [] es fields) :
    codec.FailsAtFault octets (takeField kind fields type select) := by
  unfold takeField
  split
  · exact .ok _
  · next field hfield =>
      obtain ⟨e, -, -, hspells⟩ := exists_field_of_folds hfolds hfield
      have hkind := Format.format_of_spells ((Registry.spells_iff hformat).1 hspells)
      have hsome : (select field).isSome = true := by
        rw [hselect]
        exact decide_eq_true hkind
      obtain ⟨value, hvalue⟩ := Option.isSome_iff_exists.1 hsome
      rw [hvalue]
      exact .ok _

/-- Of the fields that were read, at most the name of an Interest is missing. -/
theorem failsAtFault_ofFields (hstandard : registry.HasStandard)
    (hfolds : Folds (TakesField registry kind) [] es fields) :
    codec.FailsAtFault octets (ofFields kind fields) := by
  -- Standard formats read fields of the kind that is then taken, so only absence can fail.
  cases kind with
  | interest =>
      have hname := hstandard (Tid.interest.element TlvType.name, .name) (by decide)
      have hpayload := hstandard (Tid.interest.element TlvType.payload, .payload) (by decide)
      have hkeyId := hstandard
        (Tid.interest.element TlvType.keyIdRestriction, .hashValue) (by decide)
      have hhash := hstandard
        (Tid.interest.element TlvType.hashRestriction, .hashValue) (by decide)
      apply Result.FailsOnly.map
      unfold Interest.ofFields
      apply (failsAtFault_takeField hname Field.isSome_name? hfolds).bind
      intro name _
      cases name with
      | none => exact .error rfl
      | some name =>
          apply (failsAtFault_takeField hpayload Field.isSome_payload? hfolds).bind
          intro _ _
          apply (failsAtFault_takeField hkeyId Field.isSome_hashValue? hfolds).bind
          intro _ _
          exact (failsAtFault_takeField hhash Field.isSome_hashValue? hfolds).bind
            fun _ _ => .ok _
  | contentObject =>
      have hname := hstandard (Tid.contentObject.element TlvType.name, .name) (by decide)
      have hpayload := hstandard (Tid.contentObject.element TlvType.payload, .payload) (by decide)
      have hpayloadType := hstandard
        (Tid.contentObject.element TlvType.payloadType, .payloadType) (by decide)
      have hexpiry := hstandard (Tid.contentObject.element TlvType.expiry, .timestamp) (by decide)
      apply Result.FailsOnly.map
      unfold ContentObject.ofFields
      apply (failsAtFault_takeField hname Field.isSome_name? hfolds).bind
      intro _ _
      apply (failsAtFault_takeField hpayloadType Field.isSome_payloadType? hfolds).bind
      intro _ _
      apply (failsAtFault_takeField hexpiry Field.isSome_timestamp? hfolds).bind
      intro _ _
      exact (failsAtFault_takeField hpayload Field.isSome_payload? hfolds).bind fun _ _ => .ok _

/-- A message is refused for the fault that it has. -/
theorem failsAtFault_decode (hstandard : registry.HasStandard) {header : Header}
    (hheader : header.octets <+: octets) (htype : header.type = kind.tlvType) :
    codec.FailsAtFault octets (decode registry kind (.ofOctets octets)) := by
  unfold decode
  apply (failsAtFault_decodeFields hstandard hheader htype).bind
  intro read hread
  obtain ⟨e, -, -, ⟨es, -, hfolds⟩, -⟩ := decodeFields_eq_ok_iff.1 hread
  exact (failsAtFault_ofFields hstandard hfolds).bind fun _ _ => .ok _

end Message

/-! ### Packet bodies -/

namespace PacketCodec

variable {n start length : Nat}

/-- A body whose message is refused has the fault that is reported. -/
theorem failsAtFault_decodeMessage (hstandard : codec.registry.HasStandard) :
    codec.FailsAtFault octets (codec.decodeMessage (.ofOctets octets)) := by
  have hc := Cursor.isAt_ofOctets octets
  unfold decodeMessage
  apply hc.failsAtFault_peekHeader.bind
  intro header hpeek
  have hheader := Cursor.peekHeader_eq_ok_iff.1 hpeek
  rw [Cursor.ahead_ofOctets] at hheader
  split
  · next hnone =>
      refine .error ⟨rfl, rfl, ?_, ?_⟩
      · intro kind htype
        rw [MessageKind.ofTlvType?_eq_some_iff.2 htype.symm] at hnone
        cases hnone
      · have hwidth := Header.width_le_of_starts hheader
        rw [Header.width] at hwidth
        exact ⟨by omega, (Header.ofBigEndian_take_of_starts hheader).symm⟩
  · next kind hkind =>
      have htype := MessageKind.ofTlvType?_eq_some_iff.1 hkind
      exact (Message.failsAtFault_decode hstandard hheader htype.symm).bind fun _ _ => .ok _

/-- A suite's element fills its section, or the one or the other is too long. -/
theorem failsAtFault_decodeSuite (hstandard : codec.registry.HasStandard)
    (h : Place.Reaches octets ⟨.suites, start, length⟩ [] c)
    (hlength : codec.PointsAtFault octets
      (.invalidFieldLength Tid.validationAlgorithm length .suiteUnderrun)) :
    codec.FailsAtFault octets (codec.decodeSuite length c) := by
  unfold decodeSuite
  apply h.isAt.failsAtFault_peekHeader.bind
  intro header hpeek
  have hheader := Cursor.peekHeader_eq_ok_iff.1 hpeek
  simp only
  split
  · next hlong =>
      exact .error (h.pointsAtFault_lengthOverflow hheader (by simpa using hlong))
  split
  · exact .error hlength
  split
  · next hnone =>
      refine .error (h.pointsAtFault_unknownField hheader fun hmem => ?_)
      obtain ⟨suite, -, htype⟩ := List.mem_map.1 hmem
      rw [Suite.ofTlvType?_eq_some_iff.2 htype] at hnone
      cases hnone
  · next hsome =>
      obtain ⟨suite, hsuite⟩ := Option.ne_none_iff_exists'.1 (mt Option.isNone_iff_eq_none.2 hsome)
      have htype := (Suite.ofTlvType?_eq_some_iff.1 hsuite).symm
      have hentry : (suite.tid, Format.validationAlgorithm) ∈ Registry.standardEntries := by
        cases suite <;> decide
      have htid : Tid.validationAlgorithm.element header.type = suite.tid := by
        rw [htype, Suite.tid]
      rw [htid, Registry.lookup_eq_ok_iff.2 (hstandard _ hentry), Result.ok_bind]
      apply ((ValidationAlgorithm.failsAtFault_decode h hheader htype).map _).bind
      intro field hfield
      obtain ⟨alg, -, rfl⟩ := Result.map_eq_ok_iff.1 hfield
      exact .ok _

/-- An algorithm section is refused for the fault that it has. -/
theorem failsAtFault_decodeAlgorithm? (hstandard : codec.registry.HasStandard)
    (h : Place.Reaches octets ⟨.sections, start, length⟩ [] c) :
    codec.FailsAtFault octets (codec.decodeAlgorithm? c) := by
  unfold decodeAlgorithm?
  split
  · exact .ok _
  · apply h.isAt.failsAtFault_peekHeader.bind
    intro header hpeek
    have hheader := Cursor.peekHeader_eq_ok_iff.1 hpeek
    split
    · next htype =>
        have hlength : codec.PointsAtFault octets (.invalidFieldLength Tid.validationAlgorithm
            header.length.toNat .suiteUnderrun) := by
          rw [Tid.validationAlgorithm, ← htype]
          exact h.pointsAtFault_invalidFieldLength hheader _
        have halgorithm : codec.FailsAtFault octets (codec.decodeAlgorithm c) := by
          unfold decodeAlgorithm
          rw [Cursor.readHeader_eq_ok_iff.2 ⟨hheader, rfl⟩, Result.ok_bind]
          exact failsAtFault_decodeSuite hstandard (h.suites hheader htype) hlength
        exact halgorithm.bind fun _ _ => .ok _
    split
    · next htype =>
        rw [Tid.validationPayload, ← htype]
        exact .error (h.pointsAtFault_invalidField hheader _)
    · next halgorithm hpayload =>
        refine .error (h.pointsAtFault_unknownField hheader ?_)
        simp [Contents.types, halgorithm, hpayload]

/-- Where the section of the signature is missing, that of the algorithm is at fault. -/
theorem failsAtFault_decodeSignature (hstandard : codec.registry.HasStandard)
    (hc : c.IsAt octets n) (hmissing : codec.PointsAtFault octets missingPayload) :
    codec.FailsAtFault octets (codec.decodeSignature c) := by
  have hformat := hstandard (Tid.validationPayload, .payload) (by decide)
  unfold decodeSignature
  split
  · exact .error hmissing
  · apply hc.failsAtFault_peekHeader.bind
    intro header _
    split
    · exact .error hmissing
    · rw [Registry.lookup_eq_ok_iff.2 hformat, Result.ok_bind]
      apply ((failsAtFault_decodePayload hc).map _).bind
      intro field hfield
      obtain ⟨payload, -, rfl⟩ := Result.map_eq_ok_iff.1 hfield
      exact .ok _

/-- What stands behind a message is refused for the fault that it has. -/
theorem failsAtFault_decodeValidation (hstandard : codec.registry.HasStandard)
    (message : Message) (h : Place.Reaches octets ⟨.sections, start, length⟩ [] c) :
    codec.FailsAtFault octets (codec.decodeValidation message c) := by
  unfold decodeValidation
  apply (failsAtFault_decodeAlgorithm? hstandard h).bind
  intro result hresult
  obtain ⟨alg, after⟩ := result
  cases alg with
  | none => exact .ok _
  | some alg =>
      obtain ⟨part, hpart, hsection, rfl⟩ := decodeAlgorithm?_eq_some_iff.1 hresult
      have hmissing : codec.PointsAtFault octets missingPayload := by
        rw [missingPayload, Tid.validationAlgorithm, ← hsection.type]
        exact h.pointsAtFault_invalidField (Element.header_starts hpart) _
      exact (failsAtFault_decodeSignature hstandard (h.isAt.advance_element hpart) hmissing).bind
        fun _ _ => .ok _

/-- Behind a message that was read stand the sections. -/
theorem reaches_sections {e : Element} {message : Message} (he : e.octets <+: octets)
    (hmessage : e.IsMessage registry message) :
    Place.Reaches octets ⟨.sections, e.size, octets.length - e.size⟩ []
      ((Cursor.ofOctets octets).advance e.size) := by
  have hafter := (Cursor.isAt_ofOctets octets).advance_element he
  rw [Nat.zero_add] at hafter
  exact .of_isAt (.sections he (hmessage.type.trans message.tlvType_kind.symm)) hafter

/-- Octets behind a body that was read are trailing: without them, the body is all there is. -/
theorem pointsAtFault_trailingBytes {e : Element} {message : Message} {decoded : DecodedBody}
    {after : Cursor} (hlimit : octets.length ≤ codec.limit) (he : e.octets <+: octets)
    (hmessage : e.IsMessage codec.registry message)
    (hvalidation : codec.decodeValidation message ((Cursor.ofOctets octets).advance e.size) =
      .ok (decoded, after))
    (hmore : after.ahead ≠ []) :
    codec.PointsAtFault octets (.trailingBytes after.position after.remaining) := by
  have hc : ((Cursor.ofOctets octets).advance e.size).IsAt octets e.size :=
    (reaches_sections he hmessage).isAt
  rcases decodeValidation_eq_ok_iff.1 hvalidation with ⟨hend, -, rfl⟩ |
    ⟨part, payload, alg, signature, hboth, halg, hsignature, -, rfl⟩
  · exact absurd hend hmore
  · have hafter := hc.advance (by simpa using hboth.length_le : part.size + payload.size ≤ _)
    have hall : e.octets ++ part.octets ++ payload.octets <+: octets := by
      rw [List.append_assoc]
      exact Cursor.append_starts_iff.2 ⟨he, hboth⟩
    have hlength : (e.octets ++ part.octets ++ payload.octets).length =
        e.size + (part.size + payload.size) := by
      simp
    have hspells := SpellsBody.signed hmessage halg hsignature
    rw [List.prefix_iff_eq_take.1 hall, hlength] at hspells
    have hdecode := decode_eq_ok_iff_spells.2
      ⟨Nat.le_trans (List.length_take_le' _ _) hlimit, hspells⟩
    rw [hafter.position]
    exact ⟨hafter.add_remaining, List.length_pos_iff.2 hmore, _, hdecode⟩

/-- With the standard formats, every failure to read octets points at what is wrong in them. -/
theorem pointsAtFault_of_decode {e : Error} (hstandard : codec.registry.HasStandard)
    (h : codec.decode octets = .error e) : codec.PointsAtFault octets e := by
  suffices hall : codec.FailsAtFault octets (codec.decode octets) from hall e h
  unfold decode
  apply Result.FailsOnly.bind
  · unfold checkSize
    split
    · exact .ok _
    · next hlarge => exact .error ⟨rfl, rfl, Nat.not_le.1 hlarge⟩
  intro _ hsize
  apply (failsAtFault_decodeMessage hstandard).bind
  intro result hmessage
  obtain ⟨message, c⟩ := result
  obtain ⟨e, he, hspelled, rfl⟩ := decodeMessage_eq_ok_iff.1 hmessage
  rw [Cursor.ahead_ofOctets] at he
  apply (failsAtFault_decodeValidation hstandard message (reaches_sections he hspelled)).bind
  intro result hvalidation
  obtain ⟨decoded, after⟩ := result
  simp only
  split
  · next hmore =>
      rw [Bool.not_eq_true', ← Bool.not_eq_true, Cursor.atEnd_iff] at hmore
      exact .error (pointsAtFault_trailingBytes (checkSize_eq_ok_iff.1 hsize) he hspelled
        hvalidation hmore)
  · exact .ok _

/-- An Interest whose name has a segment of a type that no kind of segment has. -/
def oddSegment : Octets := [0, 1, 0, 13, 0, 0, 0, 9, 0, 1, 0, 1, 97, 0, 5, 0, 0]

theorem pointsAtFault_oddSegment :
    decode { registry := .shared } oddSegment =
        .error (.unknownField (Tid.nameSegment.element 5) 13) ∧
      NamesTypeAt oddSegment (Tid.nameSegment.element 5) 13 ∧
      ∃ place es header,
        PointsAtElement oddSegment (Tid.nameSegment.element 5) 13 place es header ∧
          header.type ∉ place.contents.types := by
  have hfails : decode { registry := .shared } oddSegment =
      .error (.unknownField (Tid.nameSegment.element 5) 13) := by
    decide +kernel
  exact ⟨hfails, pointsAtFault_of_decode Registry.hasStandard_shared hfails⟩

end PacketCodec

end CcnxPacket
