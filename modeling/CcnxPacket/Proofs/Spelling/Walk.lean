import CcnxPacket.Message.Decode
import CcnxPacket.Proofs.Spelling.Field

/-!
# Fields of built-in formats are walked

The fields of a message are read one behind the other, each as far as its format says. A built-in
format takes exactly the element ahead, so with built-in formats the fields are walked as the
elements of any container are (`decodeFields_eq`).
-/

namespace CcnxPacket

/-- Reads one field of a message in its registered format and adds it to those already read. -/
def visitField (registry : Registry) (kind : MessageKind) (fields : List TypedField)
    (header : Header) (c : Cursor) : Except Error (List TypedField × Cursor) :=
  let tid := kind.tid.element header.type
  if header.type ∉ kind.fieldTypes then .error (.unknownField tid c.position)
  else if (fields.lookup header.type).isSome then .error (.duplicateField tid c.position)
  else do
    let format ← registry.lookup tid
    let field ← format.decode tid c
    return ((header.type, field.value) :: fields, field.next)

/-- A built-in format takes the octets that the header ahead announces. -/
theorem Format.consumed_of_decode {format : Format} {tid : Tid} {c : Cursor} {header : Header}
    {field : Decoded Field} (hheader : c.peekHeader = .ok header)
    (h : format.decode tid c = .ok field) : field.consumed = header.elementSize := by
  obtain ⟨e, rfl, -, -, hconsumed, -⟩ :=
    ((format.reads_decode tid).eq_ok_iff_of_header (Cursor.peekHeader_eq_ok_iff.1 hheader)).1 h
  rw [hconsumed, Element.elementSize_header]

theorem readFields_eq_walk (registry : Registry) (kind : MessageKind) (length left : Nat)
    (fields : List TypedField) (c : Cursor) :
    readFields registry kind length left fields c =
      walk kind.tid length (visitField registry kind) left fields c := by
  -- On what is left, of which a built-in format takes at least a header.
  induction left using Nat.strongRecOn generalizing fields c with
  | ind left ih =>
      rw [readFields, walk]
      split
      · rfl
      · next hmore =>
          cases hheader : c.peekHeader with
          | error e => rfl
          | ok header =>
              simp only [visitField]
              split
              · rfl
              split
              · rfl
              split
              · rfl
              · simp only [readField, FieldFormat.decode_format]
                cases registry.lookup (kind.tid.element header.type) with
                | error e => rfl
                | ok format =>
                    cases hfield : format.decode (kind.tid.element header.type) c with
                    | error e => simp [hfield]
                    | ok field =>
                        have hpos := header.elementSize_pos
                        simp only [Result.ok_bind, Result.pure_eq_ok, hfield,
                          Format.consumed_of_decode hheader hfield]
                        exact ih (left - header.elementSize) (by omega) _ _

/-- With built-in formats, the fields of a message are walked as the elements of a container. -/
theorem decodeFields_eq (registry : Registry) (kind : MessageKind) (c : Cursor) :
    decodeFields registry kind c = do
      let start := c
      let (header, c) ← c.readHeader
      if header.type ≠ kind.tlvType then
        throw (.wrongMessageType kind.tlvType header.type start.position)
      let length := header.length.toNat
      if !hasAtLeast length c.ahead then throw (c.truncated length)
      let (fields, c) ← elements kind.tid length (visitField registry kind) [] c
      return { value := fields, consumed := header.elementSize, next := c } := by
  simp only [decodeFields, elements, readFields_eq_walk]

end CcnxPacket
