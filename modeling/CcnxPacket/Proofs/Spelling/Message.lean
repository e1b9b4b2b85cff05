import CcnxPacket.Proofs.Spelling.Walk

/-!
# What the element of a message spells

A message is spelled by an element of its type that holds its fields, each as the registry says, in
any order. Reading the fields records them by type, and a message and its recorded fields determine
each other.
-/

namespace CcnxPacket

/-- In the format that is registered for the identifier, the element spells the field. -/
def Registry.Spells (registry : Registry) (tid : Tid) (e : Element) (field : Field) : Prop :=
  ∃ format, registry.find? tid = some format ∧ format.Spells e field

/-- The element is of the message's type, and its value is the message's fields in some order. -/
structure Element.IsMessage (registry : Registry) (e : Element) (message : Message) : Prop where
  type : e.type = message.tlvType
  fields : ∃ es, e.value = Element.concat es ∧
    (∀ part ∈ es, part.type ∈ message.kind.fieldTypes) ∧
    ∀ type ∈ message.kind.fieldTypes,
      Supplies es type (registry.Spells (message.kind.tid.element type))
        (message.fields.lookup type)

theorem Registry.lookup_eq_ok_iff {F : Type} {registry : Registry F} {tid : Tid} {format : F} :
    registry.lookup tid = .ok format ↔ registry.find? tid = some format := by
  unfold lookup
  split
  · next found hfound => simp [hfound]
  · next hmissing => simp [hmissing]

theorem MessageKind.ofTlvType?_eq_some_iff {type : UInt16} {kind : MessageKind} :
    ofTlvType? type = some kind ↔ kind.tlvType = type := by
  constructor
  · intro h
    unfold ofTlvType? at h
    split at h
    · next htype =>
        cases h
        exact htype.symm
    split at h
    · next htype =>
        cases h
        exact htype.symm
    · cases h
  · intro h
    subst h
    cases kind <;> rfl

namespace Field

theorem name?_eq_some_iff (field : Field) (value : Name) :
    field.name? = some value ↔ field = .name value := by
  cases field <;> simp [name?]

theorem hashValue?_eq_some_iff (field : Field) (value : UInt64) :
    field.hashValue? = some value ↔ field = .hashValue value := by
  cases field <;> simp [hashValue?]

theorem payload?_eq_some_iff (field : Field) (octets : Octets) :
    field.payload? = some octets ↔ field = .payload octets := by
  cases field <;> simp [payload?]

theorem payloadType?_eq_some_iff (field : Field) (type : PayloadType) :
    field.payloadType? = some type ↔ field = .payloadType type := by
  cases field <;> simp [payloadType?]

theorem timestamp?_eq_some_iff (field : Field) (time : UInt64) :
    field.timestamp? = some time ↔ field = .timestamp time := by
  cases field <;> simp [timestamp?]

theorem validationAlgorithm?_eq_some_iff (field : Field) (alg : ValidationAlgorithm) :
    field.validationAlgorithm? = some alg ↔ field = .validationAlgorithm alg := by
  cases field <;> simp [validationAlgorithm?]

end Field

namespace Message

theorem tlvType_kind (message : Message) : message.kind.tlvType = message.tlvType := by
  cases message <;> rfl

/-! ### Reading the fields -/

/-- `TakesField registry kind fields e after`: the element is a field that is still missing, and
adds it. -/
inductive TakesField (registry : Registry) (kind : MessageKind) :
    List TypedField → Element → List TypedField → Prop where
  | intro {fields : List TypedField} {e : Element} {field : Field}
      (known : e.type ∈ kind.fieldTypes) (missing : fields.lookup e.type = none)
      (spelled : registry.Spells (kind.tid.element e.type) e field) :
      TakesField registry kind fields e ((e.type, field) :: fields)

/-- The fields of a message are visited as they are taken. -/
theorem visits_visitField (registry : Registry) (kind : MessageKind) :
    Visits (visitField registry kind) (TakesField registry kind) := by
  intro fields header c result next hheader
  constructor
  · intro h
    unfold visitField at h
    simp only at h
    split at h
    · cases h
    split at h
    · cases h
    · next hknown hmissing =>
        simp only [Result.bind_eq_ok_iff, Registry.lookup_eq_ok_iff, Result.pure_eq_ok] at h
        obtain ⟨format, hformat, decoded, hdecode, h⟩ := h
        cases h
        obtain ⟨e, rfl, he, hspelled, -, hnext⟩ :=
          ((format.reads_decode _).eq_ok_iff_of_header hheader).1 hdecode
        rw [Element.header_type] at *
        have hfree : fields.lookup e.type = none := Option.not_isSome_iff_eq_none.1 hmissing
        exact ⟨e, rfl, he, .intro (not_not.1 hknown) hfree ⟨format, hformat, hspelled⟩, hnext⟩
  · intro h
    rcases h with ⟨e, rfl, he, ⟨hknown, hmissing, format, hformat, hspelled⟩, rfl⟩
    have hnamed : ¬e.header.type ∉ kind.fieldTypes := not_not.2 hknown
    have hfree : ¬(fields.lookup e.header.type).isSome :=
      Option.not_isSome_iff_eq_none.2 hmissing
    unfold visitField
    simp only
    rw [if_neg hnamed, if_neg hfree]
    simp only [Result.bind_eq_ok_iff, Registry.lookup_eq_ok_iff, Result.pure_eq_ok]
    exact ⟨format, hformat, ⟨_, _, _⟩,
      (format.reads_decode _).2 ⟨e, he, hspelled, rfl, rfl⟩, rfl⟩

theorem lookup_record (type type' : UInt16) (field : Field) (fields : List TypedField) :
    List.lookup type' ((type, field) :: fields) =
      if type' = type then some field else fields.lookup type' := by
  rw [List.lookup_cons]
  by_cases h : type' = type
  · simp [h]
  · rw [beq_false_of_ne h, if_neg h]

/-- Taking fields records what their elements spell. -/
theorem records_takesField (registry : Registry) (kind : MessageKind) :
    Records kind.fieldTypes (fun fields type => List.lookup type fields)
      (fun type => registry.Spells (kind.tid.element type)) (TakesField registry kind) where
  filled := by
    intro fields e after h
    rcases h with ⟨hknown, hmissing, hspelled⟩
    exact ⟨hknown, hmissing, _, hspelled, fun type => lookup_record _ type _ _⟩
  fills := by
    intro fields e field hknown hmissing hspelled
    exact ⟨_, .intro hknown hmissing hspelled, fun type => lookup_record _ type _ _⟩

/-- Fields are read of an element of the message's type that consists of elements which spell
them. -/
theorem decodeFields_eq_ok_iff {registry : Registry} {kind : MessageKind} {c : Cursor}
    {decoded : Decoded (List TypedField)} :
    decodeFields registry kind c = .ok decoded ↔
      ∃ e : Element, e.octets <+: c.ahead ∧ e.type = kind.tlvType ∧
        (∃ es, e.value = Element.concat es ∧
          Folds (TakesField registry kind) [] es decoded.value) ∧
        decoded.consumed = e.size ∧ decoded.next = c.advance e.size := by
  have hvisit := visits_visitField registry kind
  obtain ⟨fields, consumed, next⟩ := decoded
  simp only [decodeFields_eq, Result.bind_eq_ok_iff, Prod.exists, Cursor.readHeader_eq_ok_iff,
    Result.pure_eq_ok, Result.throw_eq_error]
  constructor
  · intro h
    rcases h with ⟨header, _, ⟨hheader, rfl⟩, h⟩
    split at h
    · cases h
    split at h
    · cases h
    · next htype _ =>
        simp only [Result.bind_eq_ok_iff, Prod.exists] at h
        obtain ⟨read, after, helements, h⟩ := h
        cases h
        obtain ⟨e, rfl, he, hfolds, rfl⟩ := (elements_eq_ok_iff hvisit hheader).1 helements
        exact ⟨e, he, not_not.1 htype, hfolds, Element.elementSize_header e, rfl⟩
  · intro h
    rcases h with ⟨e, he, htype, hfolds, rfl, rfl⟩
    have hheader := Element.header_starts he
    have hroom := hasAtLeast_iff.2 (Cursor.length_value_le he)
    have helements : elements kind.tid e.value.length (visitField registry kind) []
        (c.advance Header.width) = .ok (fields, c.advance e.size) := by
      rw [← Element.header_length]
      exact (elements_eq_ok_iff hvisit hheader).2 ⟨e, rfl, he, hfolds, rfl⟩
    refine ⟨e.header, _, ⟨hheader, rfl⟩, ?_⟩
    rw [Element.header_type, if_neg (not_not.2 htype), Element.header_length, hroom, helements]
    simp

/-! ### Messages and their fields -/

/-- A field is taken when what is recorded for its type is of the right kind. -/
theorem takeField_eq_ok_iff {α : Type} {kind : MessageKind} {fields : List TypedField}
    {type : UInt16} {select : Field → Option α} {inject : α → Field} {value : Option α}
    (hselect : ∀ field a, select field = some a ↔ field = inject a) :
    takeField kind fields type select = .ok value ↔
      fields.lookup type = value.map inject := by
  unfold takeField
  split
  · next hmissing => cases value <;> simp [hmissing]
  · next field hfound =>
      rw [hfound]
      split
      · next a ha =>
          rw [hselect] at ha
          subst ha
          cases value with
          | none => simp
          | some b =>
              have hsame := hselect (inject a) b
              rw [(hselect _ a).2 rfl] at hsame
              simpa using hsame
      · next hother =>
          cases value with
          | none => simp
          | some b =>
              simp only [reduceCtorEq, Option.map_some, Option.some.injEq, false_iff]
              intro hfield
              rw [(hselect field b).2 hfield] at hother
              cases hother

theorem lookup_ofOption {α : Type} (type type' : UInt16) (field : α → Field) (value : Option α) :
    (TypedField.ofOption type field value).lookup type' =
      if type' = type then value.map field else none := by
  cases value with
  | none => simp [TypedField.ofOption]
  | some a => exact lookup_record type type' (field a) []

/-- The field of each type that an Interest may hold. -/
theorem lookup_interestFields (interest : Interest) (type : UInt16) :
    interest.fields.lookup type =
      if type = TlvType.name then some (.name interest.name)
      else if type = TlvType.keyIdRestriction then interest.keyIdRestriction.map .hashValue
      else if type = TlvType.hashRestriction then interest.hashRestriction.map .hashValue
      else if type = TlvType.payload then interest.payload.map .payload
      else none := by
  simp only [Interest.fields, List.cons_append, List.append_assoc, lookup_record,
    List.lookup_append, lookup_ofOption]
  grind [TlvType.name, TlvType.keyIdRestriction, TlvType.hashRestriction, TlvType.payload]

/-- The field of each type that a Content Object may hold. -/
theorem lookup_contentObjectFields (object : ContentObject) (type : UInt16) :
    object.fields.lookup type =
      if type = TlvType.name then object.name.map .name
      else if type = TlvType.payloadType then object.payloadType.map .payloadType
      else if type = TlvType.expiry then object.expiry.map .timestamp
      else if type = TlvType.payload then object.payload.map .payload
      else none := by
  simp only [ContentObject.fields, List.append_assoc, List.lookup_append, lookup_ofOption]
  grind [TlvType.name, TlvType.payloadType, TlvType.expiry, TlvType.payload]

theorem forall_interestFields_iff {interest : Interest} (p : UInt16 → Option Field → Prop) :
    (∀ type ∈ MessageKind.interest.fieldTypes, p type (interest.fields.lookup type)) ↔
      p TlvType.name (some (.name interest.name)) ∧
      p TlvType.payload (interest.payload.map .payload) ∧
      p TlvType.keyIdRestriction (interest.keyIdRestriction.map .hashValue) ∧
      p TlvType.hashRestriction (interest.hashRestriction.map .hashValue) := by
  simp only [MessageKind.fieldTypes, lookup_interestFields, List.forall_mem_cons]
  simp [TlvType.name, TlvType.payload, TlvType.keyIdRestriction, TlvType.hashRestriction]

theorem forall_contentObjectFields_iff {object : ContentObject}
    (p : UInt16 → Option Field → Prop) :
    (∀ type ∈ MessageKind.contentObject.fieldTypes, p type (object.fields.lookup type)) ↔
      p TlvType.name (object.name.map .name) ∧
      p TlvType.payload (object.payload.map .payload) ∧
      p TlvType.payloadType (object.payloadType.map .payloadType) ∧
      p TlvType.expiry (object.expiry.map .timestamp) := by
  simp only [MessageKind.fieldTypes, lookup_contentObjectFields, List.forall_mem_cons]
  simp [TlvType.name, TlvType.payload, TlvType.payloadType, TlvType.expiry]

/-- An Interest is made of fields that are its own. -/
theorem interest_ofFields_eq_ok_iff {fields : List TypedField} {interest : Interest} :
    Interest.ofFields fields = .ok interest ↔
      ∀ type ∈ MessageKind.interest.fieldTypes,
        fields.lookup type = interest.fields.lookup type := by
  rw [forall_interestFields_iff fun type field? => fields.lookup type = field?]
  simp only [Interest.ofFields, Result.bind_eq_ok_iff,
    takeField_eq_ok_iff Field.name?_eq_some_iff]
  constructor
  · intro h
    rcases h with ⟨name, hname, h⟩
    split at h
    · cases h
    · simp only [Result.bind_eq_ok_iff, takeField_eq_ok_iff Field.payload?_eq_some_iff,
        takeField_eq_ok_iff Field.hashValue?_eq_some_iff, Result.pure_eq_ok] at h
      obtain ⟨payload, hpayload, keyId, hkeyId, hash, hhash, h⟩ := h
      cases h
      exact ⟨hname, hpayload, hkeyId, hhash⟩
  · intro h
    rcases h with ⟨hname, hpayload, hkeyId, hhash⟩
    refine ⟨some interest.name, hname, ?_⟩
    simp only [Result.bind_eq_ok_iff, takeField_eq_ok_iff Field.payload?_eq_some_iff,
      takeField_eq_ok_iff Field.hashValue?_eq_some_iff, Result.pure_eq_ok]
    exact ⟨_, hpayload, _, hkeyId, _, hhash, rfl⟩

/-- A Content Object is made of fields that are its own. -/
theorem contentObject_ofFields_eq_ok_iff {fields : List TypedField} {object : ContentObject} :
    ContentObject.ofFields fields = .ok object ↔
      ∀ type ∈ MessageKind.contentObject.fieldTypes,
        fields.lookup type = object.fields.lookup type := by
  rw [forall_contentObjectFields_iff fun type field? => fields.lookup type = field?]
  simp only [ContentObject.ofFields, Result.bind_eq_ok_iff, Result.pure_eq_ok,
    takeField_eq_ok_iff Field.name?_eq_some_iff,
    takeField_eq_ok_iff Field.payloadType?_eq_some_iff,
    takeField_eq_ok_iff Field.timestamp?_eq_some_iff,
    takeField_eq_ok_iff Field.payload?_eq_some_iff]
  constructor
  · intro h
    rcases h with ⟨name, hname, type, htype, expiry, hexpiry, payload, hpayload, h⟩
    cases h
    exact ⟨hname, hpayload, htype, hexpiry⟩
  · intro h
    rcases h with ⟨hname, hpayload, htype, hexpiry⟩
    exact ⟨_, hname, _, htype, _, hexpiry, _, hpayload, rfl⟩

/-- Fields make a message exactly when they are, type by type, the message's own. -/
theorem ofFields_eq_ok_iff {kind : MessageKind} {fields : List TypedField} {message : Message} :
    ofFields kind fields = .ok message ↔
      message.kind = kind ∧
        ∀ type ∈ kind.fieldTypes, fields.lookup type = message.fields.lookup type := by
  cases kind <;> cases message <;>
    simp [ofFields, Result.map_eq_ok_iff, Message.kind, Message.fields,
      interest_ofFields_eq_ok_iff, contentObject_ofFields_eq_ok_iff]

/-! ### The element of a message -/

/-- A message is read where an element spells it. -/
theorem reads_decode (registry : Registry) (kind : MessageKind) :
    Reads (decode registry kind) fun e message =>
      message.kind = kind ∧ e.IsMessage registry message := by
  intro c read
  rcases read with ⟨message, consumed, next⟩
  have hrecords := records_takesField registry kind
  have hempty : ∀ type : UInt16, List.lookup type ([] : List TypedField) = none := fun _ => rfl
  simp only [decode, Result.bind_eq_ok_iff, decodeFields_eq_ok_iff, ofFields_eq_ok_iff,
    Result.pure_eq_ok]
  constructor
  · intro h
    rcases h with ⟨fields, ⟨e, he, htype, ⟨es, hvalue, hfolds⟩, hconsumed, hnext⟩, read, ⟨rfl,
      hfields⟩, h⟩
    cases h
    have hsupplies := (hrecords.exists_folds_iff_supplies hempty).1 ⟨_, hfolds, hfields⟩
    rw [tlvType_kind] at htype
    exact ⟨e, he, ⟨rfl, htype, es, hvalue, hsupplies⟩, hconsumed, hnext⟩
  · intro h
    rcases h with ⟨e, he, ⟨rfl, htype, es, hvalue, hsupplies⟩, rfl, rfl⟩
    obtain ⟨fields, hfolds, hfields⟩ := (hrecords.exists_folds_iff_supplies hempty).2 hsupplies
    rw [← tlvType_kind] at htype
    exact ⟨⟨fields, e.size, c.advance e.size⟩,
      ⟨e, he, htype, ⟨es, hvalue, hfolds⟩, rfl, rfl⟩, message, ⟨rfl, hfields⟩, rfl⟩

end Message

end CcnxPacket
