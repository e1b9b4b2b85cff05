import CcnxPacket.Proofs.Spelling.Algorithm

/-!
# What the elements of fields spell

A format gives an element a meaning, the field that it spells, and every decoder reads what the
elements spell in its format.
-/

namespace CcnxPacket

/-- In the format, the element spells the field. -/
def Format.Spells : Format → Element → Field → Prop
  | .name, e, .name value => e.IsName value
  | .hashValue, e, .hashValue value => e.IsHashValue value
  | .payload, e, .payload octets => e.IsPayload octets
  | .payloadType, e, .payloadType type => e.IsPayloadType type
  | .timestamp, e, .timestamp time => e.IsTimestamp time
  | .validationAlgorithm, e, .validationAlgorithm alg => e.IsAlgorithm alg
  | _, _, _ => False

namespace Format

/-- A field is read where an element spells it in the format. -/
theorem reads_decode (format : Format) (tid : Tid) : Reads (format.decode tid) format.Spells := by
  cases format with
  | name => exact Name.reads_decode.map fun e field => by cases field <;> simp [Spells]
  | hashValue =>
      exact (reads_decodeHashValue tid).map fun e field => by cases field <;> simp [Spells]
  | payload => exact reads_decodePayload.map fun e field => by cases field <;> simp [Spells]
  | payloadType =>
      exact (reads_decodePayloadType tid).map fun e field => by cases field <;> simp [Spells]
  | timestamp =>
      exact (reads_decodeTimestamp tid).map fun e field => by cases field <;> simp [Spells]
  | validationAlgorithm =>
      exact (ValidationAlgorithm.reads_decode tid).map fun e field => by
        cases field <;> simp [Spells]

end Format

end CcnxPacket
