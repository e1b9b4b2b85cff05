import CcnxPacket.Registry

/-!
# Writing messages

A message is one element whose value holds the message's fields as elements, each written in the
format registered for it. Fields are written in a fixed order with the payload last, and absent
fields take no octets.
-/

namespace CcnxPacket

/-- A field with the element type it has in its message. -/
abbrev TypedField := UInt16 × Field

/-- An optional field as a list of at most one typed field. -/
def TypedField.ofOption {α : Type} (type : UInt16) (field : α → Field) (value : Option α) :
    List TypedField :=
  (value.map fun value => (type, field value)).toList

/-- The fields of an Interest in the order in which they are written. -/
def Interest.fields (interest : Interest) : List TypedField :=
  (TlvType.name, Field.name interest.name)
    :: TypedField.ofOption TlvType.keyIdRestriction .hashValue interest.keyIdRestriction
    ++ TypedField.ofOption TlvType.hashRestriction .hashValue interest.hashRestriction
    ++ TypedField.ofOption TlvType.payload .payload interest.payload

/-- The fields of a Content Object in the order in which they are written. -/
def ContentObject.fields (object : ContentObject) : List TypedField :=
  TypedField.ofOption TlvType.name .name object.name
    ++ TypedField.ofOption TlvType.payloadType .payloadType object.payloadType
    ++ TypedField.ofOption TlvType.expiry .timestamp object.expiry
    ++ TypedField.ofOption TlvType.payload .payload object.payload

section
variable {F : Type} [FieldFormat F]

/-- The octets that the fields take in a container, without its header. -/
def fieldsSize (registry : Registry F) (container : Tid) : List TypedField → Except Error Nat
  | [] => .ok 0
  | (type, field) :: rest => do
    let format ← registry.lookup (container.element type)
    let size ← FieldFormat.encodedSize format field
    return size + (← fieldsSize registry container rest)

/-- Writes the fields of a container one after the other and returns the octets they took. -/
def writeFields (registry : Registry F) (container : Tid) : List TypedField → Writer Nat
  | [] => return 0
  | (type, field) :: rest => do
    let format ← registry.lookup (container.element type)
    let size ← FieldFormat.encode format field type
    return size + (← writeFields registry container rest)

/-- Writes a container with its fields and returns its size. The fields' total size is found first,
so that a field without a format, or of the wrong kind, fails before anything is written. -/
def writeContainer (registry : Registry F) (container : Tid) (type : UInt16)
    (fields : List TypedField) : Writer Nat := do
  let size ← fieldsSize registry container fields
  writeHeader type size
  return Header.width + (← writeFields registry container fields)

namespace Message

/-- The identifier of the message's kind. -/
def tid : Message → Tid
  | .interest _ => Tid.interest
  | .contentObject _ => Tid.contentObject

/-- The message's fields in the order in which they are written. -/
def fields : Message → List TypedField
  | .interest value => value.fields
  | .contentObject value => value.fields

/-- The octets that the message takes. -/
def encodedSize (registry : Registry F) (message : Message) : Except Error Nat :=
  (fieldsSize registry message.tid message.fields).map (Header.width + ·)

/-- Appends the message and returns the octets it took. -/
def encode (registry : Registry F) (message : Message) : Writer Nat :=
  writeContainer registry message.tid message.tlvType message.fields

/-- The octets of the message. -/
def toOctets (registry : Registry F) (message : Message) : Except Error Octets :=
  (message.encode registry).toOctets

end Message

end

end CcnxPacket
