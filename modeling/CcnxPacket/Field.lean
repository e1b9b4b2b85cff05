import CcnxPacket.Message
import CcnxPacket.Name.Uri

/-!
# Fields and their formats

A field is the value of one element, and its constructor says which kind of value it is. A format is
a way to put one kind of field on the wire; formats are registered under type identifiers, and a
format refuses every field that is not of its kind.
-/

namespace CcnxPacket

/-- The value of one element. -/
inductive Field where
  | name (name : Name)
  | hashValue (value : UInt64)
  | payload (octets : Octets)
  | payloadType (type : PayloadType)
  | timestamp (milliseconds : UInt64)
  | validationAlgorithm (alg : ValidationAlgorithm)
deriving DecidableEq

/-- The formats in which fields travel. -/
inductive Format where
  | name
  | hashValue
  | payload
  | payloadType
  | timestamp
  | validationAlgorithm
deriving DecidableEq, Repr

namespace Field

/-- The format that carries the field. -/
def format : Field → Format
  | name _ => .name
  | hashValue _ => .hashValue
  | payload _ => .payload
  | payloadType _ => .payloadType
  | timestamp _ => .timestamp
  | validationAlgorithm _ => .validationAlgorithm

/-- The name, of a field that is one. -/
def name? : Field → Option Name
  | name value => some value
  | _ => none

/-- The hash value, of a field that is one. -/
def hashValue? : Field → Option UInt64
  | hashValue value => some value
  | _ => none

/-- The payload, of a field that is one. -/
def payload? : Field → Option Octets
  | payload octets => some octets
  | _ => none

/-- The payload type, of a field that is one. -/
def payloadType? : Field → Option PayloadType
  | payloadType type => some type
  | _ => none

/-- The timestamp, of a field that is one. -/
def timestamp? : Field → Option UInt64
  | timestamp milliseconds => some milliseconds
  | _ => none

/-- The validation algorithm, of a field that is one. -/
def validationAlgorithm? : Field → Option ValidationAlgorithm
  | validationAlgorithm alg => some alg
  | _ => none

end Field

namespace Format

/-- Every format. -/
def all : List Format := [name, hashValue, payload, payloadType, timestamp, validationAlgorithm]

/-- The kind of field that the format carries, as errors call it. -/
def fieldKind : Format → String
  | name => "Name"
  | hashValue => "HashValue"
  | payload => "Payload"
  | payloadType => "PayloadType"
  | timestamp => "Timestamp"
  | validationAlgorithm => "ValidationAlgorithm"

/-- The format, as errors call it. -/
def text (format : Format) : String := format.fieldKind ++ "Codec"

/-- The failure of a format that was handed a field of another kind. -/
def mismatch (format : Format) (field : Field) : Error :=
  .typeMismatch format.text field.format.fieldKind

end Format

end CcnxPacket
