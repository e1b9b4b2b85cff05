import CcnxPacket.Message.Encode

/-!
# Reading messages

The fields of a message may come in any order, each at most once. An element whose type the message
does not know is an error, and so is an Interest without a name. A field is read in the format
registered for it, which need not be the one whose fields the message expects there.
-/

namespace CcnxPacket

/-- The two kinds of messages. -/
inductive MessageKind where
  | interest
  | contentObject
deriving DecidableEq, Repr

namespace MessageKind

/-- The element type of messages of the kind. -/
def tlvType : MessageKind → UInt16
  | interest => TlvType.interest
  | contentObject => TlvType.contentObject

/-- The kind with the given element type. -/
def ofTlvType? (type : UInt16) : Option MessageKind :=
  if type = TlvType.interest then some interest
  else if type = TlvType.contentObject then some contentObject
  else none

/-- The identifier of the kind. -/
def tid : MessageKind → Tid
  | interest => Tid.interest
  | contentObject => Tid.contentObject

/-- The types of the elements that a message of the kind may hold. -/
def fieldTypes : MessageKind → List UInt16
  | interest =>
    [TlvType.name, TlvType.payload, TlvType.keyIdRestriction, TlvType.hashRestriction]
  | contentObject => [TlvType.name, TlvType.payload, TlvType.payloadType, TlvType.expiry]

/-- The kind, as errors call it. -/
def text : MessageKind → String
  | interest => "InterestCodec"
  | contentObject => "ContentObjectCodec"

end MessageKind

/-- The kind of a message. -/
def Message.kind : Message → MessageKind
  | .interest _ => .interest
  | .contentObject _ => .contentObject

/-- The types of the fields that a message of the kind may hold beside those already read. -/
def MessageKind.missing (kind : MessageKind) (fields : List TypedField) : List UInt16 :=
  kind.fieldTypes.filter fun type => (fields.lookup type).isNone

theorem MessageKind.missing_cons_lt (kind : MessageKind) {fields : List TypedField} {type : UInt16}
    (field : Field) (hknown : ¬type ∉ kind.fieldTypes) (hnew : ¬(fields.lookup type).isSome) :
    (kind.missing ((type, field) :: fields)).length < (kind.missing fields).length := by
  have hmissing : type ∈ kind.missing fields := by
    rw [missing, List.mem_filter]
    exact ⟨Decidable.not_not.1 hknown, by rw [← Option.not_isSome, eq_false_of_ne_true hnew]; rfl⟩
  have hrest : kind.missing ((type, field) :: fields) =
      (kind.missing fields).filter (· != type) := by
    rw [missing, missing, List.filter_filter]
    apply List.filter_congr
    intro other _
    rw [List.lookup_cons]
    cases h : other == type <;> simp [bne, h]
  rw [hrest]
  exact List.length_filter_lt_length_iff_exists.2 ⟨type, hmissing, by simp⟩

section
variable {F : Type} [FieldFormat F]

/-- Reads the element at the cursor in the format registered for its identifier. -/
def readField (registry : Registry F) (tid : Tid) (c : Cursor) : Except Error (Decoded Field) := do
  let format ← registry.lookup tid
  FieldFormat.decode format tid c

/-- Reads the fields in the last `left` octets of a message whose fields take `length` octets. A
field counts with the octets that its format says it took, whatever its header says. -/
def readFields (registry : Registry F) (kind : MessageKind) (length left : Nat)
    (fields : List TypedField) (c : Cursor) : Except Error (List TypedField × Cursor) :=
  if left = 0 then .ok (fields, c)
  else
    match c.peekHeader with
    | .error e => .error e
    | .ok header =>
      let tid := kind.tid.element header.type
      if left < header.elementSize then .error (.lengthOverflow tid c.position length)
      else if header.type ∉ kind.fieldTypes then .error (.unknownField tid c.position)
      else if (fields.lookup header.type).isSome then .error (.duplicateField tid c.position)
      else
        match readField registry tid c with
        | .error e => .error e
        | .ok field =>
          readFields registry kind length (left - field.consumed)
            ((header.type, field.value) :: fields) field.next
termination_by (kind.missing fields).length
decreasing_by exact kind.missing_cons_lt _ ‹_› ‹_›

/-- Reads the fields of a message of the given kind. -/
def decodeFields (registry : Registry F) (kind : MessageKind) (c : Cursor) :
    Except Error (Decoded (List TypedField)) := do
  let start := c
  let (header, c) ← c.readHeader
  if header.type ≠ kind.tlvType then
    throw (.wrongMessageType kind.tlvType header.type start.position)
  let length := header.length.toNat
  if !hasAtLeast length c.ahead then throw (c.truncated length)
  let (fields, c) ← readFields registry kind length length [] c
  return { value := fields, consumed := header.elementSize, next := c }

end

/-- The field of the given element type, when there is one; it has to be of the kind that `select`
takes. -/
def takeField {α : Type} (kind : MessageKind) (fields : List TypedField) (type : UInt16)
    (select : Field → Option α) : Except Error (Option α) :=
  match fields.lookup type with
  | none => .ok none
  | some field =>
    match select field with
    | some value => .ok (some value)
    | none => .error (.typeMismatch kind.text field.format.fieldKind)

/-- The Interest with the given fields. -/
def Interest.ofFields (fields : List TypedField) : Except Error Interest := do
  match ← takeField .interest fields TlvType.name Field.name? with
  | none => throw (.missingMandatoryField (Tid.interest.element TlvType.name))
  | some name =>
    let payload ← takeField .interest fields TlvType.payload Field.payload?
    let keyIdRestriction ← takeField .interest fields TlvType.keyIdRestriction Field.hashValue?
    let hashRestriction ← takeField .interest fields TlvType.hashRestriction Field.hashValue?
    return { name, payload, keyIdRestriction, hashRestriction }

/-- The Content Object with the given fields. -/
def ContentObject.ofFields (fields : List TypedField) : Except Error ContentObject := do
  let name ← takeField .contentObject fields TlvType.name Field.name?
  let payloadType ← takeField .contentObject fields TlvType.payloadType Field.payloadType?
  let expiry ← takeField .contentObject fields TlvType.expiry Field.timestamp?
  let payload ← takeField .contentObject fields TlvType.payload Field.payload?
  return { name, payload, payloadType, expiry }

namespace Message

/-- The message of the given kind with the given fields. -/
def ofFields (kind : MessageKind) (fields : List TypedField) : Except Error Message :=
  match kind with
  | .interest => (Interest.ofFields fields).map .interest
  | .contentObject => (ContentObject.ofFields fields).map .contentObject

section
variable {F : Type} [FieldFormat F]

/-- Reads a message of the given kind. -/
def decode (registry : Registry F) (kind : MessageKind) (c : Cursor) :
    Except Error (Decoded Message) := do
  let fields ← decodeFields registry kind c
  let message ← ofFields kind fields.value
  return { value := message, consumed := fields.consumed, next := fields.next }

/-- Reads octets that are exactly one message of the given kind. -/
def ofOctets (registry : Registry F) (kind : MessageKind) (octets : Octets) :
    Except Error Message := do
  let message ← decode registry kind (.ofOctets octets)
  if !message.next.atEnd then
    throw (.trailingBytes message.next.position message.next.remaining)
  return message.value

end

end Message

end CcnxPacket
