import CcnxPacket.Packet.Codec
import CcnxPacket.Proofs.Container

/-!
# Where a failure of reading points

The elements inside a packet body stand in places: the values of the message, of its name, of the
section of the validation algorithm and of the suite in it, and the octets behind the message. What
the elements of a place are (`Contents`) says which types they may have and which identifier theirs
extends. A failure that concerns one element points at it: at an offset of all the octets, where the
place shows the element's header behind the elements that come before it.
-/

namespace CcnxPacket

/-! ### Places -/

/-- What the elements in a place are. -/
inductive Contents where
  | fields (kind : MessageKind)
  /-- The segments of a name. -/
  | segments
  /-- The sections behind the message. -/
  | sections
  /-- The suite in the section of the validation algorithm. -/
  | suites
  /-- The parts of a validation algorithm. -/
  | parts (suite : Suite)

namespace Contents

/-- The identifier that those of the elements extend. -/
def tid : Contents → Tid
  | fields kind => kind.tid
  | segments => Tid.nameSegment
  | sections => Tid.packetBody
  | suites => Tid.validationAlgorithm
  | parts suite => suite.tid

/-- The types that the elements may have. -/
def types : Contents → List UInt16
  | fields kind => kind.fieldTypes
  | segments => SegmentKind.labelled.map SegmentKind.tlvType
  | sections => [TlvType.validationAlgorithm, TlvType.validationPayload]
  | suites => Suite.all.map Suite.tlvType
  | parts _ => [TlvType.keyId, TlvType.publicKey, TlvType.signingTime]

end Contents

/-- Octets in which elements stand one after the other. -/
structure Place where
  contents : Contents
  /-- The offset of the first octet. -/
  start : Nat
  length : Nat

namespace Place

/-- In all the octets, the place starts with the elements, and a header comes next. -/
structure Shows (octets : Octets) (place : Place) (es : List Element) (header : Header) : Prop where
  elements : Element.concat es <+: octets.drop place.start
  within : (Element.concat es).length ≤ place.length
  header : header.octets <+: octets.drop (place.start + (Element.concat es).length)

/-- The place is one of those in the octets. -/
inductive IsIn (octets : Octets) : Place → Prop where
  | fields {kind : MessageKind} {length : UInt16}
      (message : Header.octets ⟨kind.tlvType, length⟩ <+: octets) :
      IsIn octets ⟨.fields kind, Header.width, length.toNat⟩
  | segments {kind : MessageKind} {start n : Nat} {es : List Element} {length : UInt16}
      (outer : IsIn octets ⟨.fields kind, start, n⟩)
      (name : Shows octets ⟨.fields kind, start, n⟩ es ⟨TlvType.name, length⟩) :
      IsIn octets ⟨.segments, start + (Element.concat es).length + Header.width, length.toNat⟩
  | sections {kind : MessageKind} {e : Element} (message : e.octets <+: octets)
      (type : e.type = kind.tlvType) :
      IsIn octets ⟨.sections, e.size, octets.length - e.size⟩
  | suites {start n : Nat} {length : UInt16} (outer : IsIn octets ⟨.sections, start, n⟩)
      (algorithm : Header.octets ⟨TlvType.validationAlgorithm, length⟩ <+: octets.drop start) :
      IsIn octets ⟨.suites, start + Header.width, length.toNat⟩
  | parts {start n : Nat} {suite : Suite} {length : UInt16}
      (outer : IsIn octets ⟨.suites, start, n⟩)
      (element : Header.octets ⟨suite.tlvType, length⟩ <+: octets.drop start) :
      IsIn octets ⟨.parts suite, start + Header.width, length.toNat⟩

end Place

/-! ### Failures -/

/-- The offset and the identifier are those of an element in a place, which its header shows behind
the given elements. -/
structure PointsAtElement (octets : Octets) (tid : Tid) (offset : Nat) (place : Place)
    (es : List Element) (header : Header) : Prop where
  isIn : place.IsIn octets
  shown : place.Shows octets es header
  offset_eq : offset = place.start + (Element.concat es).length
  tid_eq : tid = place.contents.tid.element header.type

/-- There is room for a header at the offset, and the type in it ends the identifier. -/
def NamesTypeAt (octets : Octets) (tid : Tid) (offset : Nat) : Prop :=
  offset + Header.width ≤ octets.length ∧
    tid.last.toNat = ofBigEndian ((octets.drop offset).take 2)

/-- The failure is one that the codec has with the octets, and it points at what is wrong in them.
A value that is not one of its element comes without an offset, and names the element. -/
def PacketCodec.PointsAtFault (codec : PacketCodec) (octets : Octets) : Error → Prop
  | .messageTooLarge size limit =>
    size = octets.length ∧ limit = codec.limit ∧ limit < size
  | .truncatedInput offset needed available =>
    offset + available = octets.length ∧ available < needed
  | .wrongMessageType expected found offset =>
    offset = 0 ∧ expected = TlvType.interest ∧ (∀ kind : MessageKind, found ≠ kind.tlvType) ∧
      2 ≤ octets.length ∧ found.toNat = ofBigEndian (octets.take 2)
  | .lengthOverflow tid offset containerLength =>
    NamesTypeAt octets tid offset ∧
      ∃ place es header, PointsAtElement octets tid offset place es header ∧
        place.length = containerLength ∧ place.start + place.length < offset + header.elementSize
  | .unknownField tid offset =>
    NamesTypeAt octets tid offset ∧
      ∃ place es header, PointsAtElement octets tid offset place es header ∧
        header.type ∉ place.contents.types
  | .duplicateField tid offset =>
    NamesTypeAt octets tid offset ∧
      ∃ place es header, PointsAtElement octets tid offset place es header ∧
        ∃ e ∈ es, e.type = header.type
  | .invalidFieldLength tid length _ =>
    ∃ offset place es header, PointsAtElement octets tid offset place es header ∧
      header.length.toNat = length
  | .invalidField tid _ =>
    ∃ offset place es header, PointsAtElement octets tid offset place es header
  | .missingMandatoryField tid => tid = Tid.interest.element TlvType.name
  | .trailingBytes offset count =>
    offset + count = octets.length ∧ 0 < count ∧
      ∃ decoded, codec.decode (octets.take offset) = .ok decoded
  | _ => False

/-- Every failure points at the fault in the octets. -/
abbrev PacketCodec.FailsAtFault (codec : PacketCodec) (octets : Octets) {α : Type}
    (x : Except Error α) : Prop :=
  Result.FailsOnly (codec.PointsAtFault octets) x

variable {codec : PacketCodec} {octets : Octets}

/-- The first two octets of a header are its type. -/
theorem Header.ofBigEndian_take_of_starts {header : Header} (h : header.octets <+: octets) :
    ofBigEndian (octets.take 2) = header.type.toNat := by
  obtain ⟨rest, rfl⟩ := h
  have htype : header.type.toNat % 256 ^ 2 = header.type.toNat :=
    Nat.mod_eq_of_lt header.type.toNat_lt
  rw [Header.octets, List.append_assoc, List.take_left' (length_bigEndian _ _),
    ofBigEndian_bigEndian, htype]

theorem Header.width_le_of_starts {header : Header} (h : header.octets <+: octets) :
    width ≤ octets.length := by
  rw [← length_octets header]
  exact h.length_le

/-- The identifier of an element that is pointed at ends in the type that stands there. -/
theorem PointsAtElement.namesTypeAt {tid : Tid} {offset : Nat} {place : Place} {es : List Element}
    {header : Header} (h : PointsAtElement octets tid offset place es header) :
    NamesTypeAt octets tid offset := by
  obtain ⟨-, ⟨-, -, hheader⟩, rfl, rfl⟩ := h
  have hwidth := Header.width_le_of_starts hheader
  have hlast : (place.contents.tid.element header.type).last = header.type.toUInt32 := by
    simp [Tid.element, Tid.child, Tid.last]
  constructor
  · rw [List.length_drop, Header.width] at hwidth
    rw [Header.width]
    omega
  · rw [hlast, Header.ofBigEndian_take_of_starts hheader]
    simp

/-! ### Cursors that are at a place -/

namespace Cursor

/-- The cursor has passed the first `n` of the octets. -/
structure IsAt (c : Cursor) (octets : Octets) (n : Nat) : Prop where
  within : n ≤ octets.length
  eq : c = (ofOctets octets).advance n

/-- A cursor over the octets stands at the start of them. -/
theorem isAt_ofOctets (octets : Octets) : (ofOctets octets).IsAt octets 0 :=
  ⟨Nat.zero_le _, (advance_zero _).symm⟩

namespace IsAt

variable {c : Cursor} {n m : Nat}

/-- What is ahead of a cursor at a place are the octets from there on. -/
theorem ahead (h : c.IsAt octets n) : c.ahead = octets.drop n := by
  rw [h.eq]
  rfl

theorem position (h : c.IsAt octets n) : c.position = n := by
  rw [h.eq, position_advance h.within, position_ofOctets, Nat.zero_add]

/-- A place and what remains behind it make up the length of the octets. -/
theorem add_remaining (h : c.IsAt octets n) : n + c.remaining = octets.length := by
  have := h.within
  rw [remaining, h.ahead, List.length_drop]
  omega

/-- Advancing moves a cursor to a later place of the same octets. -/
theorem advance (h : c.IsAt octets n) (hroom : m ≤ c.ahead.length) :
    (c.advance m).IsAt octets (n + m) := by
  have := h.within
  rw [h.ahead, List.length_drop] at hroom
  exact ⟨by omega, by rw [h.eq, advance_advance]⟩

theorem advance_header {header : Header} (h : c.IsAt octets n)
    (hheader : header.octets <+: c.ahead) :
    (c.advance Header.width).IsAt octets (n + Header.width) :=
  h.advance (Header.width_le_of_starts hheader)

theorem advance_element {e : Element} (h : c.IsAt octets n) (he : e.octets <+: c.ahead) :
    (c.advance e.size).IsAt octets (n + e.size) := by
  apply h.advance
  rw [← Element.length_octets]
  exact he.length_le

/-- A read that needs more than there is says so. -/
theorem pointsAtFault_truncated (h : c.IsAt octets n) (hshort : c.ahead.length < m) :
    codec.PointsAtFault octets (c.truncated m) := by
  refine ⟨?_, hshort⟩
  rw [h.position]
  exact h.add_remaining

/-- A read fails only where octets are missing. -/
theorem failsAtFault_read (h : c.IsAt octets n) : codec.FailsAtFault octets (c.read m) := by
  unfold read
  split
  · exact .ok _
  · next hshort =>
      rw [hasAtLeast_iff, Nat.not_le] at hshort
      exact .error (h.pointsAtFault_truncated hshort)

theorem failsAtFault_skip (h : c.IsAt octets n) : codec.FailsAtFault octets (c.skip m) := by
  unfold skip
  split
  · exact .ok _
  · next hshort =>
      rw [hasAtLeast_iff, Nat.not_le] at hshort
      exact .error (h.pointsAtFault_truncated hshort)

theorem failsAtFault_readNumber (h : c.IsAt octets n) :
    codec.FailsAtFault octets (c.readNumber m) :=
  h.failsAtFault_read.bind fun _ _ => .ok _

/-- What follows the read of a header has the header behind it. -/
theorem failsAtFault_readHeader_bind {α : Type} {f : Header × Cursor → Except Error α}
    (h : c.IsAt octets n)
    (hf : ∀ header : Header, header.octets <+: c.ahead →
      codec.FailsAtFault octets (f (header, c.advance Header.width))) :
    codec.FailsAtFault octets (c.readHeader >>= f) := by
  apply (h.failsAtFault_read.bind fun _ _ => .ok _).bind
  intro result hread
  obtain ⟨header, next⟩ := result
  obtain ⟨hheader, rfl⟩ := readHeader_eq_ok_iff.1 hread
  exact hf header hheader

theorem failsAtFault_peekHeader (h : c.IsAt octets n) : codec.FailsAtFault octets c.peekHeader :=
  h.failsAtFault_readHeader_bind fun _ _ => .ok _

/-- A value fails to be read only where octets are missing. -/
theorem failsAtFault_readValue {header : Header} (h : c.IsAt octets n)
    (hheader : header.octets <+: c.ahead) : codec.FailsAtFault octets (c.readValue header) :=
  (h.advance_header hheader).failsAtFault_read

end IsAt

end Cursor

/-! ### Walks -/

/-- The cursor is in the place, behind the elements. -/
structure Place.Reaches (octets : Octets) (place : Place) (es : List Element) (c : Cursor) :
    Prop where
  isIn : place.IsIn octets
  elements : Element.concat es <+: octets.drop place.start
  within : (Element.concat es).length ≤ place.length
  isAt : c.IsAt octets (place.start + (Element.concat es).length)

namespace Place.Reaches

variable {place : Place} {es : List Element} {c : Cursor} {header : Header}

/-- At its start, a place has no elements behind the cursor. -/
theorem of_isAt (hplace : place.IsIn octets) (hc : c.IsAt octets place.start) :
    place.Reaches octets [] c :=
  ⟨hplace, List.nil_prefix, Nat.zero_le _, hc⟩

/-- The header ahead is that of the next element of the place. -/
theorem shows (h : place.Reaches octets es c) (hheader : header.octets <+: c.ahead) :
    place.Shows octets es header :=
  ⟨h.elements, h.within, h.isAt.ahead ▸ hheader⟩

/-- The header ahead of a cursor is that of an element of the place. -/
theorem pointsAtElement (h : place.Reaches octets es c) (hheader : header.octets <+: c.ahead) :
    PointsAtElement octets (place.contents.tid.element header.type) c.position place es header :=
  ⟨h.isIn, h.shows hheader, h.isAt.position, rfl⟩

/-- Passing an element of a place adds it to those behind the cursor. -/
theorem next {e : Element} (h : place.Reaches octets es c) (he : e.octets <+: c.ahead)
    (hroom : (Element.concat es).length + e.size ≤ place.length) :
    place.Reaches octets (es ++ [e]) (c.advance e.size) := by
  have hconcat : Element.concat (es ++ [e]) = Element.concat es ++ e.octets := by
    simp
  have hlength : (Element.concat (es ++ [e])).length = (Element.concat es).length + e.size := by
    simp
  refine ⟨h.isIn, ?_, ?_, ?_⟩
  · rw [h.isAt.ahead, ← List.drop_drop] at he
    obtain ⟨rest, hrest⟩ := h.elements
    rw [← hrest, List.drop_left] at he
    rw [hconcat, ← hrest]
    exact (List.prefix_append_right_inj _).2 he
  · rwa [hlength]
  · rw [hlength, ← Nat.add_assoc]
    exact h.isAt.advance_element he

/-- The identifier of the element ahead may come with a length that its value may not have. -/
theorem pointsAtFault_invalidFieldLength (h : place.Reaches octets es c)
    (hheader : header.octets <+: c.ahead) (flaw : LengthFlaw) :
    codec.PointsAtFault octets (.invalidFieldLength (place.contents.tid.element header.type)
      header.length.toNat flaw) :=
  ⟨_, place, es, header, h.pointsAtElement hheader, rfl⟩

/-- An invalid field is complained of where it is. -/
theorem pointsAtFault_invalidField (h : place.Reaches octets es c)
    (hheader : header.octets <+: c.ahead) (flaw : FieldFlaw) :
    codec.PointsAtFault octets (.invalidField (place.contents.tid.element header.type) flaw) :=
  ⟨_, place, es, header, h.pointsAtElement hheader⟩

/-- An element that is longer than its place is complained of where it starts. -/
theorem pointsAtFault_lengthOverflow (h : place.Reaches octets es c)
    (hheader : header.octets <+: c.ahead)
    (hlong : place.length < (Element.concat es).length + header.elementSize) :
    codec.PointsAtFault octets
      (.lengthOverflow (place.contents.tid.element header.type) c.position place.length) := by
  have hpoints := h.pointsAtElement hheader
  refine ⟨hpoints.namesTypeAt, place, es, header, hpoints, rfl, ?_⟩
  rw [h.isAt.position]
  omega

/-- An element of an unknown type is complained of where it starts. -/
theorem pointsAtFault_unknownField (h : place.Reaches octets es c)
    (hheader : header.octets <+: c.ahead) (hunknown : header.type ∉ place.contents.types) :
    codec.PointsAtFault octets
      (.unknownField (place.contents.tid.element header.type) c.position) := by
  have hpoints := h.pointsAtElement hheader
  exact ⟨hpoints.namesTypeAt, place, es, header, hpoints, hunknown⟩

/-- The second element of a type is complained of where it starts. -/
theorem pointsAtFault_duplicateField (h : place.Reaches octets es c)
    (hheader : header.octets <+: c.ahead) (hsecond : ∃ e ∈ es, e.type = header.type) :
    codec.PointsAtFault octets
      (.duplicateField (place.contents.tid.element header.type) c.position) := by
  have hpoints := h.pointsAtElement hheader
  exact ⟨hpoints.namesTypeAt, place, es, header, hpoints, hsecond⟩

/-! ### Places inside elements -/

/-- Behind the header of the message are its fields. -/
theorem fields {kind : MessageKind} (hheader : header.octets <+: octets)
    (htype : header.type = kind.tlvType) :
    Place.Reaches octets ⟨.fields kind, Header.width, header.length.toNat⟩ []
      ((Cursor.ofOctets octets).advance Header.width) := by
  have hc := (Cursor.isAt_ofOctets octets).advance_header hheader
  rw [Nat.zero_add] at hc
  obtain ⟨type, length⟩ := header
  cases htype
  exact .of_isAt (.fields hheader) hc

/-- Behind the header of a name among them are its segments. -/
theorem segments {kind : MessageKind} {start n : Nat}
    (h : Place.Reaches octets ⟨.fields kind, start, n⟩ es c) (hheader : header.octets <+: c.ahead)
    (htype : header.type = TlvType.name) :
    Place.Reaches octets
      ⟨.segments, start + (Element.concat es).length + Header.width, header.length.toNat⟩ []
      (c.advance Header.width) := by
  have hshown := h.shows hheader
  have hc := h.isAt.advance_header hheader
  obtain ⟨type, length⟩ := header
  cases htype
  exact .of_isAt (.segments h.isIn hshown) hc

/-- Behind the header of the algorithm's section is the element of its suite. -/
theorem suites {start n : Nat} (h : Place.Reaches octets ⟨.sections, start, n⟩ [] c)
    (hheader : header.octets <+: c.ahead) (htype : header.type = TlvType.validationAlgorithm) :
    Place.Reaches octets ⟨.suites, start + Header.width, header.length.toNat⟩ []
      (c.advance Header.width) := by
  have hshown := (h.shows hheader).header
  have hc := h.isAt.advance_header hheader
  obtain ⟨type, length⟩ := header
  cases htype
  exact .of_isAt (.suites h.isIn hshown) hc

/-- Behind the header of the suite's element are the parts. -/
theorem parts {suite : Suite} {start n : Nat}
    (h : Place.Reaches octets ⟨.suites, start, n⟩ [] c) (hheader : header.octets <+: c.ahead)
    (htype : header.type = suite.tlvType) :
    Place.Reaches octets ⟨.parts suite, start + Header.width, header.length.toNat⟩ []
      (c.advance Header.width) := by
  have hshown := (h.shows hheader).header
  have hc := h.isAt.advance_header hheader
  obtain ⟨type, length⟩ := header
  cases htype
  exact .of_isAt (.parts h.isIn hshown) hc

end Place.Reaches

section
variable {σ : Type} {visit : σ → Header → Cursor → Except Error (σ × Cursor)}
  {step : σ → Element → σ → Prop} {start : σ} {place : Place} {c : Cursor}

/-- A walk points at the fault if its visitor does so wherever elements lead. -/
theorem failsAtFault_elements (hvisit : Visits visit step) (hplace : place.Reaches octets [] c)
    (hfault : ∀ {es : List Element} {state : σ} {c : Cursor} {header : Header},
      place.Reaches octets es c → Folds step start es state → header.octets <+: c.ahead →
        codec.FailsAtFault octets (visit state header c)) :
    codec.FailsAtFault octets (elements place.contents.tid place.length visit start c) := by
  suffices hwalk : ∀ (left : Nat) (state : σ) (c : Cursor) (es : List Element),
      place.Reaches octets es c → (Element.concat es).length + left = place.length →
      Folds step start es state →
        codec.FailsAtFault octets (walk place.contents.tid place.length visit left state c) from
    hwalk place.length start c [] hplace (by simp) (.nil _)
  intro left state c
  -- Every round adds the element that it reads to those that the walk has passed.
  fun_induction walk place.contents.tid place.length visit left state c with
  | case1 => exact fun _ _ _ _ => .ok _
  | case2 left state c _ e hpeek =>
      intro es hreaches _ _
      exact .error (hreaches.isAt.failsAtFault_peekHeader e hpeek)
  | case3 left state c _ header hpeek hlong =>
      intro es hreaches hleft _
      have hheader := Cursor.peekHeader_eq_ok_iff.1 hpeek
      exact .error (hreaches.pointsAtFault_lengthOverflow hheader (by omega))
  | case4 left state c _ header hpeek _ e hone =>
      intro es hreaches _ hfolds
      exact .error (hfault hreaches hfolds (Cursor.peekHeader_eq_ok_iff.1 hpeek) e hone)
  | case5 left state c _ header hpeek hroom after next hone ih =>
      intro es hreaches hleft hfolds
      obtain ⟨e, rfl, he, hstep, rfl⟩ := (hvisit (Cursor.peekHeader_eq_ok_iff.1 hpeek)).1 hone
      rw [Element.elementSize_header] at hroom ih ⊢
      apply ih (es ++ [e]) (hreaches.next he (by omega)) _ (hfolds.append_singleton hstep)
      simp
      omega

end

end CcnxPacket
