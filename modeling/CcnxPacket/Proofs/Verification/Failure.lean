import CcnxPacket.Packet.Signed
import CcnxPacket.Proofs.Spelling.Walk

/-!
# How reading fails

A packet body that cannot be read fails in a way that speaks of the octets, of the codec's limit or
of its formats. No failure of a signer or a verifier is among these, so a failure of verification
never comes from the verifier.
-/

namespace CcnxPacket

open Result

/-- The failures that speak of octets, of limits or of formats. -/
def Error.IsOfReading : Error → Prop
  | .unknownType _ | .truncatedInput .. | .lengthOverflow .. | .unknownField .. | .duplicateField ..
  | .missingMandatoryField _ | .typeMismatch .. | .wrongMessageType .. | .invalidFieldLength ..
  | .invalidField .. | .trailingBytes .. | .messageTooLarge .. | .unknownSuite _ => True
  | _ => False

/-- Every failure is one of reading. -/
abbrev FailsReading {α : Type} (x : Except Error α) : Prop := FailsOnly Error.IsOfReading x

namespace Cursor

variable (c : Cursor)

theorem failsReading_read (n : Nat) : FailsReading (c.read n) := by
  unfold read
  split
  · exact .ok _
  · exact .error trivial

theorem failsReading_skip (n : Nat) : FailsReading (c.skip n) := by
  unfold skip
  split
  · exact .ok _
  · exact .error trivial

theorem failsReading_readNumber (width : Nat) : FailsReading (c.readNumber width) :=
  (c.failsReading_read width).bind fun _ _ => .ok _

theorem failsReading_readHeader : FailsReading c.readHeader :=
  (c.failsReading_read _).bind fun _ _ => .ok _

theorem failsReading_peekHeader : FailsReading c.peekHeader :=
  c.failsReading_readHeader.bind fun _ _ => .ok _

theorem failsReading_readValue (header : Header) : FailsReading (c.readValue header) :=
  (c.advance Header.width).failsReading_read _

end Cursor

/-! ### Fields -/

/-- A walk fails with failures of reading when its visits do. -/
theorem failsReading_elements {σ : Type} {container : Tid} {length : Nat}
    {visit : σ → Header → Cursor → Except Error (σ × Cursor)} {state : σ} {c : Cursor}
    (hvisit : ∀ state header c, FailsReading (visit state header c)) :
    FailsReading (elements container length visit state c) := by
  unfold elements
  fun_induction walk container length visit length state c with
  | case1 => exact .ok _
  | case2 left state c _ e hpeek => exact .error (c.failsReading_peekHeader e hpeek)
  | case3 => exact .error trivial
  | case4 left state c _ header _ _ e hone => exact .error (hvisit state header c e hone)
  | case5 _ _ _ _ _ _ _ _ _ _ ih => exact ih

theorem Name.failsReading_decode (c : Cursor) : FailsReading (Name.decode c) := by
  unfold Name.decode
  apply (c.failsReading_readHeader).bind
  intro header _
  apply FailsOnly.bind
  · apply failsReading_elements
    intro segments header c
    unfold visitSegment
    split
    · exact .error trivial
    · exact (c.failsReading_readValue header).bind fun _ _ => .ok _
  · intro _ _
    exact .ok _

theorem failsReading_decodeHashValue (tid : Tid) (c : Cursor) :
    FailsReading (decodeHashValue tid c) := by
  unfold decodeHashValue
  apply (c.failsReading_readHeader).bind
  intro header _
  simp only
  split
  · exact .error trivial
  · apply FailsOnly.bind ((Cursor.failsReading_readNumber _ _).bind fun _ _ => .ok _)
    intro value _
    exact (Cursor.failsReading_skip _ _).bind fun _ _ => .ok _

theorem failsReading_decodePayload (c : Cursor) : FailsReading (decodePayload c) := by
  unfold decodePayload
  apply (c.failsReading_readHeader).bind
  intro header _
  exact (Cursor.failsReading_read _ _).bind fun _ _ => .ok _

theorem failsReading_decodePayloadType (tid : Tid) (c : Cursor) :
    FailsReading (decodePayloadType tid c) := by
  unfold decodePayloadType
  apply (c.failsReading_readHeader).bind
  intro header _
  simp only
  split
  · exact .error trivial
  · apply FailsOnly.bind ((Cursor.failsReading_readNumber _ _).bind fun _ _ => .ok _)
    intro octet _
    split
    · exact .error trivial
    · exact .ok _

theorem failsReading_decodeTimestamp (tid : Tid) (c : Cursor) :
    FailsReading (decodeTimestamp tid c) := by
  unfold decodeTimestamp
  apply (c.failsReading_readHeader).bind
  intro header _
  simp only
  split
  · exact .error trivial
  · apply FailsOnly.bind ((Cursor.failsReading_readNumber _ _).bind fun _ _ => .ok _)
    intro value _
    exact .ok _

theorem ValidationAlgorithm.failsReading_visitPart (tid : Tid) (parts : Parts) (header : Header)
    (c : Cursor) : FailsReading (visitPart tid parts header c) := by
  unfold visitPart
  apply (c.failsReading_readValue header).bind
  intro value _
  simp only
  repeat' split
  all_goals first | exact .error trivial | exact .ok _

theorem ValidationAlgorithm.failsReading_decode (tid : Tid) (c : Cursor) :
    FailsReading (ValidationAlgorithm.decode tid c) := by
  unfold ValidationAlgorithm.decode
  apply (c.failsReading_readHeader).bind
  intro header _
  simp only
  split
  · exact .error trivial
  · apply (failsReading_elements (failsReading_visitPart tid)).bind
    intro parts _
    apply FailsOnly.bind
    · unfold make
      split
      · exact .error trivial
      · exact .ok _
    · intro _ _
      exact .ok _

/-- A field that cannot be read fails with a failure of reading, whatever its format. -/
theorem Format.failsReading_decode (format : Format) (tid : Tid) (c : Cursor) :
    FailsReading (format.decode tid c) := by
  cases format with
  | name => exact (Name.failsReading_decode c).map _
  | hashValue => exact (failsReading_decodeHashValue tid c).map _
  | payload => exact (failsReading_decodePayload c).map _
  | payloadType => exact (failsReading_decodePayloadType tid c).map _
  | timestamp => exact (failsReading_decodeTimestamp tid c).map _
  | validationAlgorithm => exact (ValidationAlgorithm.failsReading_decode tid c).map _

/-! ### Messages -/

theorem Registry.failsReading_lookup (registry : Registry) (tid : Tid) :
    FailsReading (registry.lookup tid) := by
  unfold lookup
  split
  · exact .ok _
  · exact .error trivial

theorem failsReading_visitField (registry : Registry) (kind : MessageKind)
    (fields : List TypedField) (header : Header) (c : Cursor) :
    FailsReading (visitField registry kind fields header c) := by
  unfold visitField
  simp only
  split
  · exact .error trivial
  split
  · exact .error trivial
  · apply (registry.failsReading_lookup _).bind
    intro format _
    exact (format.failsReading_decode _ c).bind fun _ _ => .ok _

theorem failsReading_decodeFields (registry : Registry) (kind : MessageKind) (c : Cursor) :
    FailsReading (decodeFields registry kind c) := by
  rw [decodeFields_eq]
  apply (c.failsReading_readHeader).bind
  intro header _
  simp only
  split
  · exact .error trivial
  split
  · exact .error trivial
  · exact (failsReading_elements (failsReading_visitField registry kind)).bind fun _ _ => .ok _

theorem failsReading_takeField {α : Type} (kind : MessageKind) (fields : List TypedField)
    (type : UInt16) (select : Field → Option α) :
    FailsReading (takeField kind fields type select) := by
  unfold takeField
  split
  · exact .ok _
  split
  · exact .ok _
  · exact .error trivial

theorem Message.failsReading_ofFields (kind : MessageKind) (fields : List TypedField) :
    FailsReading (Message.ofFields kind fields) := by
  cases kind with
  | interest =>
      apply FailsOnly.map
      unfold Interest.ofFields
      apply (failsReading_takeField _ _ _ _).bind
      intro name _
      cases name with
      | none => exact .error trivial
      | some name =>
          apply (failsReading_takeField _ _ _ _).bind
          intro payload _
          apply (failsReading_takeField _ _ _ _).bind
          intro keyIdRestriction _
          exact (failsReading_takeField _ _ _ _).bind fun _ _ => .ok _
  | contentObject =>
      apply FailsOnly.map
      unfold ContentObject.ofFields
      apply (failsReading_takeField _ _ _ _).bind
      intro name _
      apply (failsReading_takeField _ _ _ _).bind
      intro payloadType _
      apply (failsReading_takeField _ _ _ _).bind
      intro expiry _
      exact (failsReading_takeField _ _ _ _).bind fun _ _ => .ok _

/-- A message that cannot be read fails with a failure of reading. -/
theorem Message.failsReading_decode (registry : Registry) (kind : MessageKind) (c : Cursor) :
    FailsReading (Message.decode registry kind c) := by
  unfold Message.decode
  apply (failsReading_decodeFields registry kind c).bind
  intro fields _
  exact (Message.failsReading_ofFields kind _).bind fun _ _ => .ok _

/-! ### Packet bodies -/

namespace PacketCodec

variable (codec : PacketCodec)

theorem failsReading_decodeMessage (c : Cursor) : FailsReading (codec.decodeMessage c) := by
  unfold decodeMessage
  apply (c.failsReading_peekHeader).bind
  intro header _
  split
  · exact .error trivial
  · exact (Message.failsReading_decode _ _ c).bind fun _ _ => .ok _

theorem failsReading_decodeSuite (length : Nat) (c : Cursor) :
    FailsReading (codec.decodeSuite length c) := by
  unfold decodeSuite
  apply (c.failsReading_peekHeader).bind
  intro header _
  simp only
  split
  · exact .error trivial
  split
  · exact .error trivial
  split
  · exact .error trivial
  · apply (codec.registry.failsReading_lookup _).bind
    intro format _
    apply (format.failsReading_decode _ c).bind
    intro field _
    split
    · exact .error trivial
    · exact .ok _

theorem failsReading_decodeAlgorithm? (c : Cursor) : FailsReading (codec.decodeAlgorithm? c) := by
  unfold decodeAlgorithm?
  split
  · exact .ok _
  · apply (c.failsReading_peekHeader).bind
    intro header _
    split
    · have halgorithm : FailsReading (codec.decodeAlgorithm c) :=
        (c.failsReading_readHeader).bind fun _ _ => codec.failsReading_decodeSuite _ _
      exact halgorithm.bind fun _ _ => .ok _
    split
    · exact .error trivial
    · exact .error trivial

theorem failsReading_decodeSignature (c : Cursor) : FailsReading (codec.decodeSignature c) := by
  unfold decodeSignature
  split
  · exact .error trivial
  · apply (c.failsReading_peekHeader).bind
    intro header _
    split
    · exact .error trivial
    · apply (codec.registry.failsReading_lookup _).bind
      intro format _
      apply (format.failsReading_decode _ c).bind
      intro field _
      split
      · exact .error trivial
      · exact .ok _

theorem failsReading_decodeValidation (message : Message) (c : Cursor) :
    FailsReading (codec.decodeValidation message c) := by
  unfold decodeValidation
  apply (codec.failsReading_decodeAlgorithm? c).bind
  intro result _
  obtain ⟨alg, after⟩ := result
  cases alg with
  | none => exact .ok _
  | some alg => exact (codec.failsReading_decodeSignature _).bind fun _ _ => .ok _

/-- A body that cannot be decoded fails with a failure of reading. -/
theorem failsReading_decode (octets : Octets) : FailsReading (codec.decode octets) := by
  unfold decode
  apply FailsOnly.bind
  · unfold checkSize
    split
    · exact .ok _
    · exact .error trivial
  intro _ _
  apply (codec.failsReading_decodeMessage _).bind
  intro message _
  apply (codec.failsReading_decodeValidation _ _).bind
  intro result _
  obtain ⟨decoded, after⟩ := result
  simp only
  split
  · exact .error trivial
  · exact .ok _

end PacketCodec

end CcnxPacket
