import CcnxPacket.Proofs.Fault.Place
import CcnxPacket.Proofs.Spelling.Field

/-!
# How reading fields fails

The decoders of plain values fail for octets that are not there and for values that may not be.
Those of names and of suites walk a place, and point at the element of it that they cannot take.
-/

namespace CcnxPacket

variable {codec : PacketCodec} {octets : Octets} {c : Cursor} {place : Place} {es : List Element}
  {header : Header}

/-! ### Plain values -/

/-- A hash value that is too short is complained of at its element. -/
theorem failsAtFault_decodeHashValue (h : place.Reaches octets es c)
    (hheader : header.octets <+: c.ahead) :
    codec.FailsAtFault octets
      (decodeHashValue (place.contents.tid.element header.type) c) := by
  have hvalue := h.isAt.advance_header hheader
  unfold decodeHashValue
  rw [Cursor.readHeader_eq_ok_iff.2 ⟨hheader, rfl⟩, Result.ok_bind]
  simp only
  split
  · exact .error (h.pointsAtFault_invalidFieldLength hheader _)
  · apply (hvalue.failsAtFault_readNumber.bind fun _ _ => .ok _).bind
    intro result hread
    obtain ⟨number, next⟩ := result
    obtain ⟨hroom, -, rfl⟩ := Cursor.readWord64_eq_ok_iff.1 hread
    exact (hvalue.advance hroom).failsAtFault_skip.bind fun _ _ => .ok _

/-- Reading a payload fails only where octets are missing. -/
theorem failsAtFault_decodePayload {n : Nat} (hc : c.IsAt octets n) :
    codec.FailsAtFault octets (decodePayload c) := by
  unfold decodePayload
  apply hc.failsAtFault_readHeader_bind
  intro header hheader
  exact (hc.advance_header hheader).failsAtFault_read.bind fun _ _ => .ok _

/-- A payload type is complained of at its element. -/
theorem failsAtFault_decodePayloadType (h : place.Reaches octets es c)
    (hheader : header.octets <+: c.ahead) :
    codec.FailsAtFault octets
      (decodePayloadType (place.contents.tid.element header.type) c) := by
  have hvalue := h.isAt.advance_header hheader
  unfold decodePayloadType
  rw [Cursor.readHeader_eq_ok_iff.2 ⟨hheader, rfl⟩, Result.ok_bind]
  simp only
  split
  · exact .error (h.pointsAtFault_invalidFieldLength hheader _)
  · apply (hvalue.failsAtFault_readNumber.bind fun _ _ => .ok _).bind
    intro octet _
    split
    · exact .error (h.pointsAtFault_invalidField hheader _)
    · exact .ok _

/-- A timestamp of another length is complained of at its element. -/
theorem failsAtFault_decodeTimestamp (h : place.Reaches octets es c)
    (hheader : header.octets <+: c.ahead) :
    codec.FailsAtFault octets
      (decodeTimestamp (place.contents.tid.element header.type) c) := by
  have hvalue := h.isAt.advance_header hheader
  unfold decodeTimestamp
  rw [Cursor.readHeader_eq_ok_iff.2 ⟨hheader, rfl⟩, Result.ok_bind]
  simp only
  split
  · exact .error (h.pointsAtFault_invalidFieldLength hheader _)
  · apply (hvalue.failsAtFault_readNumber.bind fun _ _ => .ok _).bind
    intro _ _
    exact .ok _

/-! ### Names -/

namespace Name

/-- A segment of an unknown type is complained of at its element. -/
theorem failsAtFault_visitSegment {start length : Nat} {segments : List Segment}
    (h : Place.Reaches octets ⟨.segments, start, length⟩ es c)
    (hheader : header.octets <+: c.ahead) :
    codec.FailsAtFault octets (visitSegment segments header c) := by
  unfold visitSegment
  split
  · next hkind =>
      refine .error (h.pointsAtFault_unknownField hheader fun hmem => ?_)
      obtain ⟨kind, hassigned, htype⟩ := List.mem_map.1 hmem
      rw [SegmentKind.ofTlvType?_eq_some_iff.2 ⟨hassigned, htype⟩] at hkind
      cases hkind
  · exact (h.isAt.failsAtFault_readValue hheader).bind fun _ _ => .ok _

/-- The element of a name that stands among fields is a place of segments. -/
theorem failsAtFault_decode {kind : MessageKind} {start length : Nat}
    (h : Place.Reaches octets ⟨.fields kind, start, length⟩ es c)
    (hheader : header.octets <+: c.ahead) (htype : header.type = TlvType.name) :
    codec.FailsAtFault octets (decode c) := by
  have hwalk : codec.FailsAtFault octets
      (elements Tid.nameSegment header.length.toNat visitSegment [] (c.advance Header.width)) :=
    failsAtFault_elements visits_visitSegment (h.segments hheader htype)
      fun hnext _ hshown => failsAtFault_visitSegment hnext hshown
  unfold decode
  rw [Cursor.readHeader_eq_ok_iff.2 ⟨hheader, rfl⟩, Result.ok_bind]
  exact hwalk.bind fun _ _ => .ok _

end Name

/-! ### Suites -/

namespace ValidationAlgorithm

/-- A part that is there already was read from an element of its type. -/
theorem exists_part_of_folds {parts : Parts} {type : UInt16}
    (hfolds : Folds TakesPart {} es parts) (hpart : (parts.part? type).isSome) :
    ∃ e ∈ es, e.type = type := by
  obtain ⟨part, hpart⟩ := Option.isSome_iff_exists.1 hpart
  rcases records_takesPart.slot_of_folds hfolds hpart with hempty | ⟨e, he, htype, -⟩
  · simp [Parts.part?] at hempty
  · exact ⟨e, he, htype⟩

/-- A part of an algorithm is complained of at its element. -/
theorem failsAtFault_visitPart {suite : Suite} {start length : Nat} {parts : Parts}
    (h : Place.Reaches octets ⟨.parts suite, start, length⟩ es c)
    (hfolds : Folds TakesPart {} es parts) (hheader : header.octets <+: c.ahead) :
    codec.FailsAtFault octets (visitPart suite.tid parts header c) := by
  have hduplicate : (parts.part? header.type).isSome → codec.PointsAtFault octets
      (.duplicateField (suite.tid.element header.type) c.position) := fun hpart =>
    h.pointsAtFault_duplicateField hheader (exists_part_of_folds hfolds hpart)
  -- The value is read before its type is looked at, so missing octets win over all else.
  unfold visitPart
  apply (h.isAt.failsAtFault_readValue hheader).bind
  intro result hread
  obtain ⟨value, next⟩ := result
  obtain ⟨e, he, -, rfl, -⟩ := (Cursor.readValue_eq_ok_iff hheader).1 hread
  simp only
  split
  · next htype =>
      split
      · next hsome =>
          rw [htype] at hduplicate
          exact .error (htype ▸ hduplicate hsome)
      · exact .ok _
  split
  · next htype =>
      split
      · next hsome =>
          rw [htype] at hduplicate
          exact .error (htype ▸ hduplicate hsome)
      · exact .ok _
  split
  · next htype =>
      split
      · next hsome =>
          rw [htype, Parts.part?_signingTime, Option.isSome_map] at hduplicate
          exact .error (htype ▸ hduplicate hsome)
      split
      · rw [← Element.header_length, he]
        exact .error (h.pointsAtFault_invalidFieldLength hheader _)
      · exact .ok _
  · next hkeyId hpublicKey hsigningTime =>
      refine .error (h.pointsAtFault_unknownField hheader ?_)
      simp [Contents.types, hkeyId, hpublicKey, hsigningTime]

/-- The element of a suite in its section is a place of parts. -/
theorem failsAtFault_decode {suite : Suite} {start length : Nat}
    (h : Place.Reaches octets ⟨.suites, start, length⟩ [] c)
    (hheader : header.octets <+: c.ahead) (htype : header.type = suite.tlvType) :
    codec.FailsAtFault octets (decode suite.tid c) := by
  have hwalk : codec.FailsAtFault octets
      (elements suite.tid header.length.toNat (visitPart suite.tid) {} (c.advance Header.width)) :=
    failsAtFault_elements (visits_visitPart suite.tid) (h.parts hheader htype)
      fun hnext hfolds hshown => failsAtFault_visitPart hnext hfolds hshown
  unfold decode
  rw [Cursor.readHeader_eq_ok_iff.2 ⟨hheader, rfl⟩, Result.ok_bind]
  simp only
  rw [Suite.ofTlvType?_eq_some_iff.2 htype.symm]
  apply hwalk.bind
  intro _ _
  apply Result.FailsOnly.bind
  · have hfield : ∀ flaw, codec.PointsAtFault octets (.invalidField suite.tid flaw) := by
      rw [Suite.tid, ← htype]
      exact h.pointsAtFault_invalidField hheader
    unfold make
    split
    · exact .error (hfield _)
    · exact .ok _
  · intro _ _
    exact .ok _

end ValidationAlgorithm

end CcnxPacket
