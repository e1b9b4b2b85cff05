import CcnxPacket.Proofs.Spelling.Field
import CcnxPacket.Proofs.Writing.Writer

/-!
# What fields are written as

A format turns a field of its kind into a value (`valueOf`), and writing the field is writing the
element with that value. What is written spells the field again, given that its name can be read
back and that its validation algorithm is one that `make` returns.
-/

namespace CcnxPacket

namespace Name

/-- The types and values of the segments. -/
def parts (name : Name) : List (UInt16 × Octets) :=
  name.segments.map fun segment => (segment.kind.tlvType, segment.value)

/-- The parts of a name take the octets that it says. -/
theorem length_rawConcat_parts (name : Name) :
    (rawConcat name.parts).length = name.segmentsSize := by
  obtain ⟨segments⟩ := name
  unfold parts segmentsSize
  induction segments with
  | nil => rfl
  | cons segment segments ih =>
      simp only [List.map_cons, rawConcat_cons, List.length_append, length_rawElement, ih,
        sizeOfSegments]

theorem yields_writeSegments {segments : List Segment}
    (h : (rawConcat (parts ⟨segments⟩)).length ≤ Header.maxLength) :
    Writer.Yields (writeSegments segments) (.ok ()) (rawConcat (parts ⟨segments⟩)) := by
  induction segments with
  | nil => exact Writer.yields_pure ()
  | cons segment segments ih =>
      have hsplit : rawConcat (parts ⟨segment :: segments⟩) =
          rawElement segment.kind.tlvType segment.value ++ rawConcat (parts ⟨segments⟩) := rfl
      rw [hsplit, List.length_append, length_rawElement] at h
      have hfirst : segment.value.length ≤ Header.maxLength := by omega
      have hrest : (rawConcat (parts ⟨segments⟩)).length ≤ Header.maxLength := by omega
      rw [hsplit]
      exact (Writer.yields_writeElement hfirst).bind (ih hrest)

/-- A name is written as the element of its parts, or not at all. -/
theorem emits_encode (name : Name) (type : UInt16) :
    Writer.Emits (name.encode type) (Element.make type (rawConcat name.parts)) Element.size := by
  unfold encode
  rw [← length_rawConcat_parts]
  apply Writer.emits_of_header
  intro e _ hvalue
  rw [Element.size_of_value hvalue]
  exact (yields_writeSegments (Element.length_le_of_value hvalue)).bind_pure _

/-- A name whose kinds are all assigned is read from what is written of it. -/
theorem isName_of_parts {name : Name} (hassigned : name.IsAssigned) {e : Element}
    (hvalue : e.value = rawConcat name.parts) : e.IsName name := by
  obtain ⟨es, hconcat, hall⟩ := exists_elements_of_fits (Element.length_le_of_value hvalue)
  refine ⟨es, hvalue.trans hconcat, ?_⟩
  rw [parts, List.forall₂_map_right_iff] at hall
  have hsegments : List.Forall₂ (fun segment e => segment.kind.IsAssigned ∧
      e.type = segment.kind.tlvType ∧ e.value = segment.value) name.segments es :=
    (List.forall₂_and_left _ _).2 ⟨hassigned, hall.flip⟩
  exact hsegments.flip

end Name

namespace ValidationAlgorithm

/-- An optional value with its type, as a list of at most one part. -/
def optionPart (type : UInt16) (value : Option Octets) : List (UInt16 × Octets) :=
  (value.map fun octets => (type, octets)).toList

/-- The types and values of the parts that travel in the suite's element. -/
def wireParts (alg : ValidationAlgorithm) : List (UInt16 × Octets) :=
  optionPart TlvType.keyId alg.keyId
    ++ optionPart TlvType.publicKey alg.publicKey
    ++ optionPart TlvType.signingTime alg.signingTimeOctets

theorem length_optionPart (type : UInt16) (value : Option Octets) :
    (rawConcat (optionPart type value)).length = optionSize value := by
  cases value with
  | none => rfl
  | some octets => simp [optionPart, optionSize, length_rawElement]

/-- The parts of an algorithm take the octets that it says. -/
theorem length_rawConcat_wireParts (alg : ValidationAlgorithm) :
    (rawConcat alg.wireParts).length = alg.partsSize := by
  simp only [wireParts, rawConcat_append, List.length_append, length_optionPart, partsSize]

theorem yields_writeOption (type : UInt16) (value : Option Octets)
    (h : (rawConcat (optionPart type value)).length ≤ Header.maxLength) :
    Writer.Yields (writeOption type value) (.ok ()) (rawConcat (optionPart type value)) := by
  cases value with
  | none => exact Writer.yields_pure ()
  | some octets =>
      rw [length_optionPart, optionSize] at h
      have hfits : octets.length ≤ Header.maxLength := by omega
      have hraw : rawConcat (optionPart type (some octets)) = rawElement type octets := by
        simp [optionPart]
      rw [hraw]
      exact (Writer.yields_writeElement hfits).bind_pure _

/-- An algorithm is written as the element of its parts, or not at all. -/
theorem emits_encode (alg : ValidationAlgorithm) (type : UInt16) :
    Writer.Emits (alg.encode type) (Element.make type (rawConcat alg.wireParts)) Element.size := by
  unfold encode
  rw [← length_rawConcat_wireParts]
  apply Writer.emits_of_header
  intro e _ hvalue
  have hfits := Element.length_le_of_value hvalue
  simp only [wireParts, rawConcat_append, List.length_append] at hfits
  have hkeyId := yields_writeOption TlvType.keyId alg.keyId (by omega)
  have hpublicKey := yields_writeOption TlvType.publicKey alg.publicKey (by omega)
  have htime := yields_writeOption TlvType.signingTime alg.signingTimeOctets (by omega)
  have hall := hkeyId.next (hpublicKey.next (htime.bind_pure fun _ =>
    Header.width + (rawConcat alg.wireParts).length))
  rw [Element.size_of_value hvalue]
  simpa only [wireParts, rawConcat_append, List.append_assoc] using hall

theorem lookup_optionPart (type type' : UInt16) (value : Option Octets) :
    (optionPart type value).lookup type' = if type' = type then value else none := by
  cases value with
  | none => simp [optionPart]
  | some octets =>
      by_cases h : type' = type
      · simp [optionPart, h]
      · simp [optionPart, List.lookup_cons, beq_false_of_ne h, h]

theorem lookup_wireParts (alg : ValidationAlgorithm) (type : UInt16) :
    alg.wireParts.lookup type = alg.parts.part? type := by
  simp only [wireParts, List.lookup_append, lookup_optionPart, Parts.part?]
  grind [TlvType.keyId, TlvType.publicKey, TlvType.signingTime, parts, signingTimeOctets]

theorem nodup_partTypes : partTypes.Nodup := by decide

theorem types_optionPart_sublist (type : UInt16) (value : Option Octets) :
    ((optionPart type value).map Prod.fst).Sublist [type] := by
  cases value with
  | none => exact List.nil_sublist _
  | some octets => exact List.Sublist.refl _

/-- The parts of an algorithm are written in the order of their types. -/
theorem types_wireParts_sublist (alg : ValidationAlgorithm) :
    (alg.wireParts.map Prod.fst).Sublist partTypes := by
  simp only [wireParts, List.map_append]
  have hkeyId := types_optionPart_sublist TlvType.keyId alg.keyId
  have hpublicKey := types_optionPart_sublist TlvType.publicKey alg.publicKey
  have htime := types_optionPart_sublist TlvType.signingTime alg.signingTimeOctets
  exact (hkeyId.append hpublicKey).append htime

/-- No part of an algorithm is written twice. -/
theorem nodup_wireParts (alg : ValidationAlgorithm) : (alg.wireParts.map Prod.fst).Nodup :=
  alg.types_wireParts_sublist.nodup nodup_partTypes

theorem mem_wireParts_type {alg : ValidationAlgorithm} {part : UInt16 × Octets}
    (h : part ∈ alg.wireParts) : part.1 ∈ partTypes :=
  alg.types_wireParts_sublist.subset (List.mem_map_of_mem h)

/-- An algorithm that `make` returns is read from what is written of it, but for its signature. -/
theorem isAlgorithm_of_wireParts {alg : ValidationAlgorithm} (hmade : alg.IsMade) {e : Element}
    (htype : e.type = alg.suite.tlvType) (hvalue : e.value = rawConcat alg.wireParts) :
    e.IsAlgorithm alg.unsigned := by
  obtain ⟨es, hconcat, hall⟩ := exists_elements_of_fits (Element.length_le_of_value hvalue)
  refine ⟨htype, hmade, rfl, es, hvalue.trans hconcat, ?_, ?_⟩
  · exact type_mem_of_forall₂ hall (fun e part h => h.1) fun part => mem_wireParts_type
  · intro type _
    have hsupplies : Supplies es type Element.IsPayload (alg.wireParts.lookup type) :=
      supplies_lookup (fun _ => Element.IsPayload) hall alg.nodup_wireParts
    rwa [lookup_wireParts] at hsupplies

end ValidationAlgorithm

/-! ### Fields of any kind -/

namespace Format

/-- The value of the element that the format writes for the field. -/
def valueOf : Format → Field → Except Error Octets
  | .name, .name value => .ok (rawConcat value.parts)
  | .hashValue, .hashValue number => .ok (hashValueOctets number)
  | .payload, .payload octets => .ok octets
  | .payloadType, .payloadType type => .ok [type.octet]
  | .timestamp, .timestamp time => .ok (bigEndian timestampWidth time.toNat)
  | .validationAlgorithm, .validationAlgorithm alg => .ok (rawConcat alg.wireParts)
  | format, field => .error (format.mismatch field)

/-- The signature of an algorithm is not written with it. -/
theorem valueOf_unsigned (format : Format) (alg : ValidationAlgorithm) :
    format.valueOf (.validationAlgorithm alg.unsigned) =
      format.valueOf (.validationAlgorithm alg) := by
  cases format <;> rfl

/-- The size of a field is that of its header and its value. -/
theorem encodedSize_eq (format : Format) (field : Field) :
    format.encodedSize field = (format.valueOf field).map (Header.width + ·.length) := by
  cases format <;> cases field <;>
    simp [encodedSize, valueOf, Name.length_rawConcat_parts, hashValueOctets, hashValueWidth,
      ValidationAlgorithm.length_rawConcat_wireParts, length_bigEndian]

/-- Writing a field is writing the element with its value; without a value it fails at once. -/
theorem emits_encode (format : Format) (field : Field) (type : UInt16) :
    Writer.Emits (format.encode field type) (format.valueOf field >>= Element.make type)
      Element.size := by
  cases format with
  | name =>
      cases field with
      | name value => exact value.emits_encode type
      | _ => exact Writer.yields_throw _
  | hashValue =>
      cases field with
      | hashValue number => exact Writer.emits_writeElement type _
      | _ => exact Writer.yields_throw _
  | payload =>
      cases field with
      | payload octets => exact Writer.emits_writeElement type octets
      | _ => exact Writer.yields_throw _
  | payloadType =>
      cases field with
      | payloadType kind => exact Writer.emits_writeElement type _
      | _ => exact Writer.yields_throw _
  | timestamp =>
      cases field with
      | timestamp time => exact Writer.emits_writeElement type _
      | _ => exact Writer.yields_throw _
  | validationAlgorithm =>
      cases field with
      | validationAlgorithm alg => exact alg.emits_encode type
      | _ => exact Writer.yields_throw _

end Format

/-- The field can be read back from an element of the given type: a name has assigned kinds only,
and an algorithm is one that `make` returns, without a signature, in the element of its suite. -/
def Field.IsReadableAs (type : UInt16) : Field → Prop
  | .name value => value.IsAssigned
  | .validationAlgorithm alg =>
      type = alg.suite.tlvType ∧ alg.IsMade ∧ alg.signature = none
  | _ => True

theorem isHashValue_of_octets {number : UInt64} {e : Element}
    (hvalue : e.value = hashValueOctets number) : e.IsHashValue number := by
  have hlength : (bigEndian hashValueWidth number.toNat).length = hashValueWidth :=
    length_bigEndian _ _
  constructor
  · rw [hvalue, hashValueOctets, List.length_append, hlength]
    exact Nat.le_add_right _ _
  · rw [hvalue, hashValueOctets, List.take_left' hlength]
    exact (ofBigEndian_bigEndian_word64 number).symm

/-- What is written of a readable field spells the field. -/
theorem Format.spells_of_valueOf {format : Format} {field : Field} {e : Element}
    (hvalue : format.valueOf field = .ok e.value) (hreadable : field.IsReadableAs e.type) :
    format.Spells e field := by
  cases format with
  | name =>
      cases field with
      | name value => exact Name.isName_of_parts hreadable (Except.ok.inj hvalue).symm
      | _ => cases hvalue
  | hashValue =>
      cases field with
      | hashValue number => exact isHashValue_of_octets (Except.ok.inj hvalue).symm
      | _ => cases hvalue
  | payload =>
      cases field with
      | payload octets => exact (Except.ok.inj hvalue).symm
      | _ => cases hvalue
  | payloadType =>
      cases field with
      | payloadType kind => exact (Except.ok.inj hvalue).symm
      | _ => cases hvalue
  | timestamp =>
      cases field with
      | timestamp time => exact (Except.ok.inj hvalue).symm
      | _ => cases hvalue
  | validationAlgorithm =>
      cases field with
      | validationAlgorithm alg =>
          obtain ⟨htype, hmade, hunsigned⟩ := hreadable
          have halg := ValidationAlgorithm.isAlgorithm_of_wireParts hmade htype
            (Except.ok.inj hvalue).symm
          rwa [ValidationAlgorithm.unsigned_eq_self hunsigned] at halg
      | _ => cases hvalue

end CcnxPacket
