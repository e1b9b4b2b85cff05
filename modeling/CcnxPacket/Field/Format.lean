import CcnxPacket.Field.Decode

/-!
# Formats of any type

Whoever fills a registry may bring formats of their own. What packets ask of a type of formats is
`FieldFormat`: to read and to write fields, to say beforehand how many octets a field takes, and a
text for errors. Nothing says that reading undoes writing, or that a format keeps to its element.
The built-in formats are one such type.
-/

namespace CcnxPacket

/-- What is asked of a type of formats. -/
class FieldFormat (F : Type) where
  /-- The format, as errors call it. -/
  text : F → String
  /-- Reads the element at the cursor as a field. Errors name the identifier given. -/
  decode : F → Tid → Cursor → Except Error (Decoded Field)
  /-- Appends a field as an element of the given type and returns the octets it took. -/
  encode : F → Field → UInt16 → Writer Nat
  /-- The octets that `encode` takes for a field. -/
  encodedSize : F → Field → Except Error Nat

namespace FieldFormat

instance : FieldFormat Format where
  text := Format.text
  decode := Format.decode
  encode := Format.encode
  encodedSize := Format.encodedSize

@[simp] theorem text_format (format : Format) : text format = format.text := rfl

@[simp] theorem decode_format (format : Format) : decode format = format.decode := rfl

@[simp] theorem encode_format (format : Format) : encode format = format.encode := rfl

@[simp] theorem encodedSize_format (format : Format) :
    encodedSize format = format.encodedSize := rfl

end FieldFormat

end CcnxPacket
