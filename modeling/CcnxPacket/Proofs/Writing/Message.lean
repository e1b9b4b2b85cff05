import CcnxPacket.Proofs.Spelling.Message
import CcnxPacket.Proofs.Writing.Field

/-!
# What messages are written as

Writing a message is writing one element, whose value is the message's fields in the order of the
encoder. Everything that can go wrong goes wrong before the element's header is written: a field
without a format, a format for fields of another kind, a value that is too long.
-/

namespace CcnxPacket

section
variable {registry : Registry} {container : Tid} {fields : List TypedField}
  {parts : List (UInt16 × Octets)}

/-- The types of the fields with the values that they are written with. -/
def fieldParts (registry : Registry) (container : Tid) :
    List TypedField → Except Error (List (UInt16 × Octets))
  | [] => .ok []
  | (type, field) :: rest => do
    let format ← registry.lookup (container.element type)
    let value ← format.valueOf field
    return (type, value) :: (← fieldParts registry container rest)

theorem fieldParts_cons_eq_ok_iff {type : UInt16} {field : Field} :
    fieldParts registry container ((type, field) :: fields) = .ok parts ↔
      ∃ format value rest, registry.find? (container.element type) = some format ∧
        format.valueOf field = .ok value ∧ fieldParts registry container fields = .ok rest ∧
        parts = (type, value) :: rest := by
  simp only [fieldParts, Result.bind_eq_ok_iff, Registry.lookup_eq_ok_iff, Result.pure_eq_ok,
    Except.ok.injEq]
  constructor
  · intro h
    obtain ⟨format, hformat, value, hvalue, rest, hrest, rfl⟩ := h
    exact ⟨format, value, rest, hformat, hvalue, hrest, rfl⟩
  · intro h
    obtain ⟨format, value, rest, hformat, hvalue, hrest, rfl⟩ := h
    exact ⟨format, hformat, value, hvalue, rest, hrest, rfl⟩

/-- The size of fields is that of their parts. -/
theorem fieldsSize_eq :
    fieldsSize registry container fields =
      (fieldParts registry container fields).map fun parts => (rawConcat parts).length := by
  induction fields with
  | nil => rfl
  | cons head fields ih =>
      obtain ⟨type, field⟩ := head
      simp only [fieldsSize, fieldParts, ih, FieldFormat.encodedSize_format, Format.encodedSize_eq]
      cases registry.lookup (container.element type) with
      | error e => rfl
      | ok format =>
          cases hvalue : format.valueOf field with
          | error e => simp [hvalue]
          | ok value =>
              cases fieldParts registry container fields with
              | error e => simp [hvalue]
              | ok rest => simp [hvalue, length_rawElement]

/-- Fields whose parts fit are written as these. -/
theorem yields_writeFields (h : fieldParts registry container fields = .ok parts)
    (hfits : (rawConcat parts).length ≤ Header.maxLength) :
    Writer.Yields (writeFields registry container fields) (.ok (rawConcat parts).length)
      (rawConcat parts) := by
  induction fields generalizing parts with
  | nil =>
      cases h
      exact Writer.yields_pure 0
  | cons head fields ih =>
      obtain ⟨type, field⟩ := head
      obtain ⟨format, value, rest, hformat, hvalue, hrest, rfl⟩ := fieldParts_cons_eq_ok_iff.1 h
      simp only [rawConcat_cons, List.length_append, length_rawElement] at hfits ⊢
      have hfirst : value.length ≤ Header.maxLength := by omega
      have hemits := format.emits_encode field type
      rw [hvalue, Result.ok_bind, Element.make_of_fits hfirst] at hemits
      have htail := (ih hrest (by omega)).bind_pure (Header.width + value.length + ·)
      exact Writer.Yields.lift_bind (Registry.lookup_eq_ok_iff.2 hformat)
        (Writer.Yields.bind hemits htail)

/-- Writing a container is writing the element that holds the fields. -/
theorem emits_writeContainer (type : UInt16) :
    Writer.Emits (writeContainer registry container type fields)
      (fieldParts registry container fields >>= fun parts =>
        Element.make type (rawConcat parts))
      Element.size := by
  unfold writeContainer
  rw [fieldsSize_eq]
  apply Writer.Emits.lift_map_bind
  intro parts hparts
  apply Writer.emits_of_header
  intro e _ hvalue
  rw [Element.size_of_value hvalue]
  exact (yields_writeFields hparts (Element.length_le_of_value hvalue)).bind_pure _

/-- The fields that are written are elements that spell them. -/
theorem exists_elements_of_fieldParts (h : fieldParts registry container fields = .ok parts)
    (hfits : (rawConcat parts).length ≤ Header.maxLength)
    (hreadable : ∀ field ∈ fields, field.2.IsReadableAs field.1) :
    ∃ es, rawConcat parts = Element.concat es ∧
      List.Forall₂ (fun e field => e.type = field.1 ∧
        registry.Spells (container.element field.1) e field.2) es fields := by
  induction fields generalizing parts with
  | nil =>
      cases h
      exact ⟨[], rfl, .nil⟩
  | cons head fields ih =>
      obtain ⟨type, field⟩ := head
      obtain ⟨format, value, rest, hformat, hvalue, hrest, rfl⟩ := fieldParts_cons_eq_ok_iff.1 h
      simp only [rawConcat_cons, List.length_append, length_rawElement] at hfits
      rw [List.forall_mem_cons] at hreadable
      have hfirst : value.length ≤ Header.maxLength := by omega
      obtain ⟨es, hconcat, hall⟩ := ih hrest (by omega) hreadable.2
      let e : Element := ⟨type, value, hfirst⟩
      have hspells : format.Spells e field := Format.spells_of_valueOf hvalue hreadable.1
      refine ⟨e :: es, ?_, .cons ⟨rfl, format, hformat, hspells⟩ hall⟩
      rw [rawConcat_cons, hconcat]
      rfl

end

namespace MessageKind

/-- The types of the fields of messages of the kind, in the order in which they are written. -/
def writtenTypes : MessageKind → List UInt16
  | interest =>
    [TlvType.name, TlvType.keyIdRestriction, TlvType.hashRestriction, TlvType.payload]
  | contentObject => [TlvType.name, TlvType.payloadType, TlvType.expiry, TlvType.payload]

theorem nodup_writtenTypes (kind : MessageKind) : kind.writtenTypes.Nodup := by
  cases kind <;> decide

theorem writtenTypes_subset (kind : MessageKind) : kind.writtenTypes ⊆ kind.fieldTypes := by
  cases kind <;> decide

end MessageKind

namespace Message

/-- Every segment of the message's name is of a kind that is read back. -/
def IsAssigned : Message → Prop
  | .interest value => value.name.IsAssigned
  | .contentObject value => ∀ name ∈ value.name, name.IsAssigned

/-- The element that the message is written as. -/
def element (registry : Registry) (message : Message) : Except Error Element := do
  let parts ← fieldParts registry message.tid message.fields
  Element.make message.tlvType (rawConcat parts)

/-- A message is written as its element, or not at all. -/
theorem emits_encode (registry : Registry) (message : Message) :
    Writer.Emits (message.encode registry) (message.element registry) Element.size :=
  emits_writeContainer message.tlvType

theorem tid_kind (message : Message) : message.kind.tid = message.tid := by
  cases message <;> rfl

theorem types_ofOption_sublist {α : Type} (type : UInt16) (inject : α → Field)
    (value : Option α) : ((TypedField.ofOption type inject value).map Prod.fst).Sublist [type] := by
  cases value with
  | none => exact List.nil_sublist _
  | some a => exact List.Sublist.refl _

/-- A message's fields have types out of those of its kind, in the encoder's order. -/
theorem types_fields_sublist (message : Message) :
    (message.fields.map Prod.fst).Sublist message.kind.writtenTypes := by
  cases message with
  | interest value =>
      simp only [fields, Interest.fields, List.map_append, List.map_cons]
      have htypes := (types_ofOption_sublist TlvType.keyIdRestriction .hashValue
        value.keyIdRestriction).append (types_ofOption_sublist TlvType.hashRestriction .hashValue
          value.hashRestriction)
      have hall := htypes.append (types_ofOption_sublist TlvType.payload .payload value.payload)
      exact List.Sublist.cons_cons TlvType.name hall
  | contentObject value =>
      simp only [fields, ContentObject.fields, List.map_append]
      have hname := types_ofOption_sublist TlvType.name .name value.name
      have hkind := types_ofOption_sublist TlvType.payloadType .payloadType value.payloadType
      have hexpiry := types_ofOption_sublist TlvType.expiry .timestamp value.expiry
      have hpayload := types_ofOption_sublist TlvType.payload .payload value.payload
      exact ((hname.append hkind).append hexpiry).append hpayload

/-- No field of a message is written twice. -/
theorem nodup_fields (message : Message) : (message.fields.map Prod.fst).Nodup := by
  exact message.types_fields_sublist.nodup message.kind.nodup_writtenTypes

/-- The fields of a message are known to its kind. -/
theorem mem_fields_type {message : Message} {field : TypedField} (h : field ∈ message.fields) :
    field.1 ∈ message.kind.fieldTypes := by
  have hmem := message.types_fields_sublist.subset (List.mem_map_of_mem h)
  exact message.kind.writtenTypes_subset hmem

theorem isReadableAs_of_mem_ofOption {α : Type} {type : UInt16} {inject : α → Field}
    {value : Option α} {field : TypedField} (h : field ∈ TypedField.ofOption type inject value)
    (hreadable : ∀ a ∈ value, (inject a).IsReadableAs type) :
    field.2.IsReadableAs field.1 := by
  cases value with
  | none => cases h
  | some a =>
      cases List.mem_singleton.1 h
      exact hreadable a rfl

/-- The fields of a message can be read where they are written. -/
theorem isReadableAs_of_mem_fields {message : Message} (hassigned : message.IsAssigned)
    {field : TypedField} (h : field ∈ message.fields) : field.2.IsReadableAs field.1 := by
  cases message with
  | interest value =>
      simp only [fields, Interest.fields, List.cons_append, List.mem_cons, List.mem_append] at h
      rcases h with rfl | (h | h) | h
      · exact hassigned
      · exact isReadableAs_of_mem_ofOption h fun _ _ => trivial
      · exact isReadableAs_of_mem_ofOption h fun _ _ => trivial
      · exact isReadableAs_of_mem_ofOption h fun _ _ => trivial
  | contentObject value =>
      simp only [fields, ContentObject.fields, List.mem_append] at h
      rcases h with ((h | h) | h) | h
      · exact isReadableAs_of_mem_ofOption h hassigned
      · exact isReadableAs_of_mem_ofOption h fun _ _ => trivial
      · exact isReadableAs_of_mem_ofOption h fun _ _ => trivial
      · exact isReadableAs_of_mem_ofOption h fun _ _ => trivial

/-- A message whose name can be read back is read from the element that it is written as. -/
theorem isMessage_of_element {registry : Registry} {message : Message} {e : Element}
    (hassigned : message.IsAssigned) (h : message.element registry = .ok e) :
    e.IsMessage registry message := by
  obtain ⟨parts, hparts, hmake⟩ := Result.bind_eq_ok_iff.1 h
  obtain ⟨htype, hvalue⟩ := Element.make_eq_ok_iff.1 hmake
  have hfits := Element.length_le_of_value hvalue
  obtain ⟨es, hconcat, hall⟩ := exists_elements_of_fieldParts hparts hfits
    fun field => isReadableAs_of_mem_fields hassigned
  refine ⟨htype, es, hvalue.trans hconcat, ?_, ?_⟩
  · exact type_mem_of_forall₂ hall (fun e field h => h.1) fun field => mem_fields_type
  · intro type _
    rw [tid_kind]
    exact supplies_lookup (fun type => registry.Spells (message.tid.element type)) hall
      message.nodup_fields

end Message

end CcnxPacket
