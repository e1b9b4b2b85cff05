import CcnxPacket.Proofs.Arrangement
import CcnxPacket.Proofs.Grammar.Recognition
import CcnxPacket.Proofs.Writing.Message
import Mathlib.Algebra.Ring.Int.Defs

/-!
# The normal form of a message

A message may come with its fields in any order, and with any octets behind the eight of a
restriction that count. It is written again with the fields in the encoder's order, and with 24
zeros behind the eight octets. Every other field is written as it came, so what a message gains or
loses are the octets that its restrictions lack of 32, or have beyond them.
-/

namespace CcnxPacket

namespace Element

/-- The element's type and value. -/
def typed (e : Element) : UInt16 × Octets := (e.type, e.value)

theorem rawConcat_map_typed (es : List Element) : rawConcat (es.map typed) = concat es := by
  induction es with
  | nil => rfl
  | cons e es ih =>
      rw [List.map_cons, rawConcat_cons, ih]
      rfl

/-! ### Restrictions -/

/-- Among the fields of a message, the element is a restriction, the value of which is a hash. -/
def IsRestriction (e : Element) : Prop :=
  e.type = TlvType.keyIdRestriction ∨ e.type = TlvType.hashRestriction

instance (e : Element) : Decidable e.IsRestriction := inferInstanceAs (Decidable (_ ∨ _))

/-- The octets of a hash that count, with zeros behind them. -/
def padded (value : Octets) : Octets := value.take hashValueWidth ++ List.replicate 24 0

/-- A padded value fits into an element. -/
theorem length_padded_le (value : Octets) : (padded value).length ≤ Header.maxLength := by
  simp only [padded, List.length_append, List.length_take, List.length_replicate, hashValueWidth,
    Header.maxLength]
  omega

/-- The field as it is written. -/
def normal (e : Element) : Element :=
  if e.IsRestriction then ⟨e.type, padded e.value, length_padded_le e.value⟩ else e

theorem normal_of_isRestriction {e : Element} (h : e.IsRestriction) :
    e.normal = ⟨e.type, padded e.value, length_padded_le e.value⟩ := if_pos h

theorem normal_of_not_isRestriction {e : Element} (h : ¬e.IsRestriction) : e.normal = e := if_neg h

@[simp] theorem type_normal (e : Element) : e.normal.type = e.type := by
  unfold normal
  split <;> rfl

/-- A value is padded already when it has the octets of a hash value and zeros behind the number. -/
theorem padded_eq_self_iff {value : Octets} :
    padded value = value ↔
      value.length = 32 ∧ ∀ octet ∈ value.drop hashValueWidth, octet = 0 := by
  have hzeros : value.drop hashValueWidth = List.replicate 24 0 ↔
      value.length = 32 ∧ ∀ octet ∈ value.drop hashValueWidth, octet = 0 := by
    rw [List.eq_replicate_iff, List.length_drop, hashValueWidth]
    refine and_congr_left fun _ => ?_
    omega
  rw [← hzeros, padded]
  constructor
  · intro h
    nth_rewrite 2 [← List.take_append_drop hashValueWidth value] at h
    exact (List.append_cancel_left h).symm
  · intro h
    rw [← h, List.take_append_drop]

/-- A restriction of 32 octets that end with zeros is written as it is, and so is every field that
is not a restriction. -/
theorem normal_eq_self_iff {e : Element} :
    e.normal = e ↔
      (e.IsRestriction →
        e.value.length = 32 ∧ ∀ octet ∈ e.value.drop hashValueWidth, octet = 0) := by
  by_cases h : e.IsRestriction
  · rw [normal_of_isRestriction h, ← padded_eq_self_iff]
    simp [h, Element.ext_iff]
  · simp [normal_of_not_isRestriction h, h]

/-! ### Sizes -/

/-- The octets that the restrictions among the elements lack of 32, or have beyond them. -/
def deficit (es : List Element) : Int :=
  ((es.filter IsRestriction).map fun e => 32 - (e.value.length : Int)).sum

theorem deficit_cons_of_isRestriction {e : Element} (h : e.IsRestriction) (es : List Element) :
    deficit (e :: es) = 32 - (e.value.length : Int) + deficit es := by
  simp [deficit, h]

theorem deficit_cons_of_not_isRestriction {e : Element} (h : ¬e.IsRestriction)
    (es : List Element) : deficit (e :: es) = deficit es := by
  simp [deficit, h]

/-- Elements in normal form are longer by the deficit of their hash values. -/
theorem length_concat_map_normal {es : List Element}
    (hlong : ∀ e ∈ es, e.IsRestriction → hashValueWidth ≤ e.value.length) :
    ((concat (es.map normal)).length : Int) = (concat es).length + deficit es := by
  induction es with
  | nil => rfl
  | cons e es ih =>
      rw [List.forall_mem_cons] at hlong
      obtain ⟨hfirst, hrest⟩ := hlong
      have hothers := ih hrest
      simp only [List.map_cons, concat_cons, List.length_append, length_octets]
      by_cases h : e.IsRestriction
      · have hsize : e.normal.size = Header.width + 32 := by
          have height : (e.value.take hashValueWidth).length = hashValueWidth :=
            List.length_take_of_le (hfirst h)
          have hvalue : e.normal.value = padded e.value := by rw [normal_of_isRestriction h]
          rw [size_of_value hvalue, padded, List.length_append, height]
          rfl
        rw [deficit_cons_of_isRestriction h, hsize, size]
        push_cast
        omega
      · rw [deficit_cons_of_not_isRestriction h, normal_of_not_isRestriction h]
        push_cast
        omega

end Element

/-! ### Fields -/

/-- What is written of a hash are the octets that were read, padded. -/
theorem hashValueOctets_of_isHashValue {e : Element} {number : UInt64}
    (h : e.IsHashValue number) : hashValueOctets number = Element.padded e.value := by
  obtain ⟨hlong, hnumber⟩ := h
  have height : (e.value.take hashValueWidth).length = hashValueWidth :=
    List.length_take_of_le hlong
  have hoctets := bigEndian_ofBigEndian (e.value.take hashValueWidth)
  rw [height, ← hnumber] at hoctets
  rw [hashValueOctets, hoctets, Element.padded]

/-- The parts of a name make up the value of its element. -/
theorem Name.rawConcat_parts_of_isName {e : Element} {name : Name} (h : e.IsName name) :
    rawConcat name.parts = e.value := by
  obtain ⟨es, hvalue, hsegments⟩ := h
  have hparts : es.map Element.typed = name.parts := by
    rw [parts, ← List.forall₂_eq_eq_eq, List.forall₂_map_left_iff, List.forall₂_map_right_iff]
    refine hsegments.imp fun e segment hsegment => ?_
    exact Prod.ext hsegment.2.1 hsegment.2.2
  rw [← hparts, Element.rawConcat_map_typed, hvalue]

/-- In every format of fields, what is written of an element that was read is the element's value,
padded if it is a hash. -/
theorem Format.valueOf_of_spells {format : Format} {e : Element} {field : Field}
    (h : format.Spells e field) (hplain : format ≠ .validationAlgorithm) :
    format.valueOf field =
      .ok (if format = .hashValue then Element.padded e.value else e.value) := by
  cases format with
  | name =>
      cases field with
      | name value => exact congrArg Except.ok (Name.rawConcat_parts_of_isName h)
      | _ => exact h.elim
  | hashValue =>
      cases field with
      | hashValue number => exact congrArg Except.ok (hashValueOctets_of_isHashValue h)
      | _ => exact h.elim
  | payload =>
      cases field with
      | payload octets => exact congrArg Except.ok (Eq.symm h)
      | _ => exact h.elim
  | payloadType =>
      cases field with
      | payloadType kind => exact congrArg Except.ok (Eq.symm h)
      | _ => exact h.elim
  | timestamp =>
      cases field with
      | timestamp time => exact congrArg Except.ok (Eq.symm h)
      | _ => exact h.elim
  | validationAlgorithm => exact absurd rfl hplain

section
variable {registry : Registry} {kind : MessageKind} {e : Element} {es : List Element}

/-- The standard formats of the fields of a message: restrictions alone are hashes. -/
theorem Registry.HasStandard.find?_field (hstandard : registry.HasStandard)
    (htype : e.type ∈ kind.fieldTypes) :
    ∃ format, registry.find? (kind.tid.element e.type) = some format ∧
      format ≠ .validationAlgorithm ∧ (format = .hashValue ↔ e.IsRestriction) := by
  have hentries : (kind.fieldTypes.all fun type => standardEntries.any fun entry =>
      entry.1 = kind.tid.element type ∧ entry.2 ≠ .validationAlgorithm ∧
        (entry.2 = .hashValue ↔
          type = TlvType.keyIdRestriction ∨ type = TlvType.hashRestriction)) = true := by
    cases kind <;> decide
  simp only [List.all_eq_true, List.any_eq_true, decide_eq_true_eq] at hentries
  obtain ⟨entry, hmem, htid, hplain, hhash⟩ := hentries e.type htype
  exact ⟨entry.2, htid ▸ hstandard entry hmem, hplain, hhash⟩

/-- A field that was read is written in its normal form. -/
theorem valueOf_of_field (hstandard : registry.HasStandard) {field : Field}
    (htype : e.type ∈ kind.fieldTypes) (h : registry.Spells (kind.tid.element e.type) e field) :
    ∃ format, registry.find? (kind.tid.element e.type) = some format ∧
      format.valueOf field = .ok e.normal.value := by
  obtain ⟨format, hformat, hplain, hhash⟩ := hstandard.find?_field htype
  refine ⟨format, hformat, ?_⟩
  rw [Format.valueOf_of_spells ((Registry.spells_iff hformat).1 h) hplain]
  by_cases hrestriction : e.IsRestriction
  · rw [if_pos (hhash.2 hrestriction), Element.normal_of_isRestriction hrestriction]
  · rw [if_neg (hhash.not.2 hrestriction), Element.normal_of_not_isRestriction hrestriction]

/-- Fields are written as the normal forms of the elements that spell them. -/
theorem fieldParts_of_fields (hstandard : registry.HasStandard) {fields : List TypedField}
    (hknown : ∀ e ∈ es, e.type ∈ kind.fieldTypes)
    (h : List.Forall₂ (fun e field => e.type = field.1 ∧
      registry.Spells (kind.tid.element field.1) e field.2) es fields) :
    fieldParts registry kind.tid fields = .ok ((es.map Element.normal).map Element.typed) := by
  induction h with
  | nil => rfl
  | @cons e field es fields hhead _ ih =>
      obtain ⟨type, field⟩ := field
      obtain ⟨rfl, hspells⟩ := hhead
      rw [List.forall_mem_cons] at hknown
      obtain ⟨format, hformat, hvalue⟩ := valueOf_of_field hstandard hknown.1 hspells
      refine fieldParts_cons_eq_ok_iff.2 ⟨format, _, _, hformat, hvalue, ih hknown.2, ?_⟩
      simp [Element.typed]

/-! ### Messages -/

/-- The elements can be the fields of a message of the kind. -/
structure MessageKind.Admits (kind : MessageKind) (es : List Element) : Prop where
  known : ∀ e ∈ es, e.type ∈ kind.fieldTypes
  distinct : (es.map Element.type).Nodup
  long : ∀ e ∈ es, e.IsRestriction → hashValueWidth ≤ e.value.length

/-- The fields as they are written: in order, and each in its normal form. -/
def MessageKind.normalForm (kind : MessageKind) (es : List Element) : List Element :=
  (Element.arrange kind.writtenTypes es).map Element.normal

namespace MessageKind

/-- All fields of a message are written. -/
theorem fieldTypes_subset (kind : MessageKind) : kind.fieldTypes ⊆ kind.writtenTypes := by
  cases kind <;> decide

/-- A message in normal form is longer by the deficit of its hash values. -/
theorem length_normalForm (h : kind.Admits es) :
    ((Element.concat (kind.normalForm es)).length : Int) =
      (Element.concat es).length + Element.deficit es := by
  have hperm : (kind.normalForm es).Perm (es.map Element.normal) :=
    (Element.arrange_perm kind.nodup_writtenTypes h.distinct
      fun e he => kind.fieldTypes_subset (h.known e he)).map _
  rw [Element.length_concat_of_perm hperm, Element.length_concat_map_normal h.long]

/-- Elements are in normal form when they are in order and padded. -/
theorem normalForm_eq_self_iff (h : kind.Admits es) :
    kind.normalForm es = es ↔
      (es.map Element.type).Sublist kind.writtenTypes ∧ ∀ e ∈ es, e.normal = e :=
  Element.map_arrange_eq_self_iff Element.type_normal kind.nodup_writtenTypes h.distinct

/-- A Content Object has no restrictions. -/
theorem deficit_contentObject (h : Admits .contentObject es) : Element.deficit es = 0 := by
  have hnone : es.filter Element.IsRestriction = [] := by
    rw [List.filter_eq_nil_iff]
    intro e he
    have htype := h.known e he
    simp only [fieldTypes, List.mem_cons, List.not_mem_nil, or_false] at htype
    rcases htype with htype | htype | htype | htype <;>
      simp [Element.IsRestriction, htype, TlvType.name, TlvType.payload, TlvType.payloadType,
        TlvType.expiry, TlvType.keyIdRestriction, TlvType.hashRestriction]
  rw [Element.deficit, hnone]
  rfl

end MessageKind

namespace Message

variable {message : Message}

/-- The only elements in the value of a message's element are the fields of the message. -/
theorem supplies_of_isMessage (h : e.IsMessage registry message)
    (hvalue : e.value = Element.concat es) :
    (∀ part ∈ es, part.type ∈ message.kind.fieldTypes) ∧
      ∀ type ∈ message.kind.fieldTypes,
        Supplies es type (registry.Spells (message.kind.tid.element type))
          (message.fields.lookup type) := by
  obtain ⟨parts, hparts, hsupplies⟩ := h.fields
  rwa [Element.concat_injective (hvalue.symm.trans hparts)]

/-- The elements in the value of a message are such as a message of the kind may have. -/
theorem admits_of_isMessage (hstandard : registry.HasStandard)
    (h : e.IsMessage registry message) (hvalue : e.value = Element.concat es) :
    message.kind.Admits es := by
  obtain ⟨hknown, hsupplies⟩ := supplies_of_isMessage h hvalue
  refine ⟨hknown, Grammar.distinct_of_supplies hknown hsupplies, ?_⟩
  intro part hpart hrestriction
  have hsupplied := hsupplies part.type (hknown part hpart)
  obtain ⟨format, hformat, -, hhash⟩ := hstandard.find?_field (hknown part hpart)
  have hmem : part ∈ es.filter fun e => e.type = part.type := by simp [hpart]
  cases hfield : message.fields.lookup part.type with
  | none =>
      rw [hfield, supplies_none_iff] at hsupplied
      exact absurd rfl (hsupplied part hpart)
  | some field =>
      rw [hfield] at hsupplied
      obtain ⟨only, hfilter, hspells⟩ := supplies_some_iff.1 hsupplied
      rw [hfilter, List.mem_singleton] at hmem
      subst hmem
      rw [Registry.spells_iff hformat, hhash.2 hrestriction] at hspells
      cases field with
      | hashValue number => exact hspells.1
      | _ => exact hspells.elim

/-- A message that was read is written with its fields in their normal form. -/
theorem element_of_isMessage (hstandard : registry.HasStandard)
    (h : e.IsMessage registry message) (hvalue : e.value = Element.concat es) :
    message.element registry =
      Element.make e.type (Element.concat (message.kind.normalForm es)) := by
  obtain ⟨hknown, hsupplies⟩ := supplies_of_isMessage h hvalue
  have hall := Element.forall₂_arrange
    (fun type => registry.Spells (message.kind.tid.element type)) message.kind.nodup_writtenTypes
    message.types_fields_sublist
    fun type htype => hsupplies type (message.kind.writtenTypes_subset htype)
  have harranged : ∀ e ∈ Element.arrange message.kind.writtenTypes es,
      e.type ∈ message.kind.fieldTypes := by
    intro e he
    exact hknown e (Element.mem_arrange_iff.1 he).1
  rw [element, ← tid_kind, fieldParts_of_fields hstandard harranged hall, Result.ok_bind,
    Element.rawConcat_map_typed, h.type]
  rfl

/-- A name that was read has assigned kinds only. -/
theorem isAssigned_of_isMessage (h : e.IsMessage registry message) : message.IsAssigned := by
  obtain ⟨-, es, -, -, hsupplies⟩ := h
  have hknown : TlvType.name ∈ message.kind.fieldTypes := by
    cases message.kind <;> decide
  have hname : ∀ name : Name, message.fields.lookup TlvType.name = some (.name name) →
      name.IsAssigned := by
    intro name hfield
    have hsupplied := hsupplies TlvType.name hknown
    rw [hfield] at hsupplied
    obtain ⟨part, -, format, -, hspells⟩ := supplies_some_iff.1 hsupplied
    have hsegments : part.IsName name := by
      cases format <;> first | exact hspells | exact hspells.elim
    obtain ⟨parts, -, hall⟩ := hsegments
    exact ((List.forall₂_and_left _ _).1 hall.flip).1
  cases message with
  | interest value =>
      apply hname
      rw [fields, lookup_interestFields, if_pos rfl]
  | contentObject value =>
      intro name hmem
      apply hname
      rw [fields, lookup_contentObjectFields, if_pos rfl, Option.mem_def.1 hmem, Option.map_some]

end Message

end

end CcnxPacket
