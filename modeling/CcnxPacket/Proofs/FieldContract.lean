import CcnxPacket.Proofs.Fault.Place
import CcnxPacket.Proofs.Writing.Field

/-!
# What formats promise

A format refuses every field that is not of its kind, and leaves the output alone then. A field of
its kind has a size; when a header can count its value, exactly that many octets are added to
whatever is there. Whatever comes behind them, they are read back as the field, with two
restrictions: a name may have no application kind beyond the fourth, and an algorithm, which is one
that `make` returns, stands in the element of its suite and comes without its signature. A name with
an application kind beyond the fourth is refused at the first segment that has one.
-/

namespace CcnxPacket

/-! ### Names that are not read back -/

namespace SegmentKind

/-- The types of the application kinds follow one another from `0x1000` on. -/
theorem toNat_tlvType_app (n : UInt8) : (app n).tlvType.toNat = 0x1000 + n.toNat := by
  have hlt := n.toNat_lt
  simp only [tlvType, UInt16.toNat_add, UInt16.toNat_ofNat, UInt8.toNat_toUInt16]
  omega

/-- The types of assigned segments end with that of the fourth application. -/
theorem toNat_tlvType_le_of_isAssigned {kind : SegmentKind} (h : kind.IsAssigned) :
    kind.tlvType.toNat ≤ 0x1003 := by
  have hall : ∀ kind ∈ labelled, kind.tlvType.toNat ≤ 0x1003 := by decide
  exact hall kind h

/-- The type of an application kind beyond the fourth is that of no kind that is read. -/
theorem ofTlvType?_app_eq_none {n : UInt8} (h : 3 < n) : ofTlvType? (app n).tlvType = none := by
  rw [Option.eq_none_iff_forall_ne_some]
  intro kind hkind
  obtain ⟨hassigned, htype⟩ := ofTlvType?_eq_some_iff.1 hkind
  have hle := toNat_tlvType_le_of_isAssigned hassigned
  have hn : 3 < n.toNat := UInt8.lt_iff_toNat_lt.1 h
  rw [htype, toNat_tlvType_app] at hle
  omega

end SegmentKind

namespace Name

/-- A name that is not read back has a first segment that stops the reader. -/
theorem exists_first_app {segments : List Segment} (h : ¬IsAssigned ⟨segments⟩) :
    ∃ before n value rest, segments = before ++ ⟨.app n, value⟩ :: rest ∧ 3 < n ∧
      IsAssigned ⟨before⟩ := by
  induction segments with
  | nil => exact absurd (List.forall_mem_nil _) h
  | cons segment segments ih =>
      by_cases hfirst : segment.kind.IsAssigned
      · have hrest : ¬IsAssigned ⟨segments⟩ :=
          fun hrest => h (List.forall_mem_cons.2 ⟨hfirst, hrest⟩)
        obtain ⟨before, n, value, rest, rfl, hn, hbefore⟩ := ih hrest
        exact ⟨segment :: before, n, value, rest, rfl, hn, List.forall_mem_cons.2 ⟨hfirst, hbefore⟩⟩
      · obtain ⟨kind, value⟩ := segment
        simp only [SegmentKind.isAssigned_iff, not_forall, UInt8.not_le] at hfirst
        obtain ⟨n, rfl, hn⟩ := hfirst
        exact ⟨[], n, value, segments, rfl, hn, List.forall_mem_nil _⟩

/-- Segments of applications with a number above three are not known. -/
theorem visitSegment_app {segments : List Segment} {header : Header} {c : Cursor} {n : UInt8}
    (htype : header.type = (SegmentKind.app n).tlvType) (hn : 3 < n) :
    visitSegment segments header c =
      .error (.unknownField (Tid.nameSegment.element (SegmentKind.app n).tlvType) c.position) := by
  rw [visitSegment, htype, SegmentKind.ofTlvType?_app_eq_none hn]

/-- Segments that are read, and then one that is not, are elements at the front of a value. -/
theorem exists_elements_of_app {before rest : List Segment} {n : UInt8} {value : Octets}
    {e : Element} (hvalue : e.value = rawConcat (parts ⟨before ++ ⟨.app n, value⟩ :: rest⟩))
    (hbefore : IsAssigned ⟨before⟩) :
    ∃ (es : List Element) (refused : Element), List.Forall₂ Element.IsSegment es before ∧
      refused.type = (SegmentKind.app n).tlvType ∧
      (Element.concat es).length = sizeOfSegments before ∧
      Element.concat (es ++ [refused]) <+: e.value := by
  have hsplit : e.value = rawConcat (parts ⟨before⟩) ++
      (rawElement (SegmentKind.app n).tlvType value ++ rawConcat (parts ⟨rest⟩)) := by
    rw [hvalue]
    simp [parts]
  have hfits := Element.length_le_of_value hsplit
  rw [List.length_append, List.length_append, length_rawElement] at hfits
  let readable : Element := ⟨e.type, rawConcat (parts ⟨before⟩), by omega⟩
  let refused : Element := ⟨(SegmentKind.app n).tlvType, value, by omega⟩
  obtain ⟨es, hes, hall⟩ : readable.IsName ⟨before⟩ := isName_of_parts hbefore rfl
  refine ⟨es, refused, hall, rfl, ?_, ?_⟩
  · rw [← hes]
    exact length_rawConcat_parts ⟨before⟩
  · rw [hsplit, Element.concat_append, ← hes, Element.concat_cons, Element.concat_nil,
      List.append_nil]
    exact (List.prefix_append_right_inj _).2 (List.prefix_append _ _)

/-- A name is refused at the first segment whose kind is not read. -/
theorem decode_of_app {before rest : List Segment} {n : UInt8} {value : Octets} {e : Element}
    {c : Cursor} (he : e.octets <+: c.ahead)
    (hvalue : e.value = rawConcat (parts ⟨before ++ ⟨.app n, value⟩ :: rest⟩))
    (hbefore : IsAssigned ⟨before⟩) (hn : 3 < n) :
    decode c = .error (.unknownField (Tid.nameSegment.element (SegmentKind.app n).tlvType)
      (c.position + Header.width + sizeOfSegments before)) := by
  obtain ⟨es, refused, hall, htype, hlength, hstarts⟩ := exists_elements_of_app hvalue hbefore
  have hfolds : Folds _ [] es (before.reverse ++ []) := folds_visitSegment_iff.2 ⟨before, hall, rfl⟩
  have hahead : Element.concat (es ++ [refused]) <+: (c.advance Header.width).ahead := by
    rw [Cursor.ahead_of_starts he]
    exact hstarts.trans (List.prefix_append _ _)
  have hposition : ((c.advance Header.width).advance (Element.concat es).length).position =
      c.position + Header.width + sizeOfSegments before := by
    have hroom := he.length_le
    have hwithin := hstarts.length_le
    rw [Element.length_octets, Element.size] at hroom
    rw [Element.concat_append, List.length_append] at hwithin
    rw [Cursor.advance_advance, Cursor.position_advance (by omega), hlength, Nat.add_assoc]
  have hrefused : visitSegment (before.reverse ++ []) refused.header
      ((c.advance Header.width).advance (Element.concat es).length) = _ :=
    visitSegment_app htype hn
  rw [hposition] at hrefused
  have hwalk : walk Tid.nameSegment e.value.length visitSegment e.value.length []
      (c.advance Header.width) = _ :=
    walk_of_refused visits_visitSegment hfolds hahead hstarts.length_le hrefused
  rw [decode, Cursor.readHeader_eq_ok_iff.2 ⟨Element.header_starts he, rfl⟩, Result.ok_bind]
  simp only [elements, Element.header_length]
  rw [hwalk, Result.error_bind]

end Name

/-! ### Fields of the format's kind, and others -/

/-- The field as its element says it: an algorithm comes without its signature. -/
def Field.unsigned : Field → Field
  | .validationAlgorithm alg => .validationAlgorithm alg.unsigned
  | field => field

namespace Format

variable {format : Format} {field : Field}

/-- The value that a format finds in a field does not depend on its signature. -/
theorem valueOf_field_unsigned (format : Format) (field : Field) :
    format.valueOf field.unsigned = format.valueOf field := by
  cases field with
  | validationAlgorithm alg => exact format.valueOf_unsigned alg
  | _ => rfl

/-- A format finds no value in a field of another format. -/
theorem valueOf_of_ne (h : field.format ≠ format) :
    format.valueOf field = .error (format.mismatch field) := by
  cases format <;> cases field <;> first | rfl | exact absurd rfl h

/-- A format shows no field of another format. -/
theorem render_of_ne (h : field.format ≠ format) :
    format.render field = .error (format.mismatch field) := by
  cases format <;> cases field <;> first | rfl | exact absurd rfl h

/-- The format of a field finds its value. -/
theorem exists_valueOf (field : Field) : ∃ value, field.format.valueOf field = .ok value := by
  cases field <;> exact ⟨_, rfl⟩

/-- The format of a field shows it. -/
theorem exists_render (field : Field) : ∃ text, field.format.render field = .ok text := by
  cases field <;> exact ⟨_, rfl⟩

/-! ### Octets that a field was written as -/

/-- What reading makes of the field's element of the given type and size, that stands in the octets
behind the first `start` of them. -/
structure ReadsBack (format : Format) (field : Field) (type : UInt16) (octets : Octets)
    (start size : Nat) : Prop where
  /-- A field that can be read back is, and all its octets are consumed. -/
  same : field.unsigned.IsReadableAs type → ∀ tid,
    format.decode tid ((Cursor.ofOctets octets).advance start) =
      .ok ⟨field.unsigned, size, (Cursor.ofOctets octets).advance (start + size)⟩
  /-- A name with an application kind beyond the fourth is refused at the first of them. -/
  refused : ∀ name, field = .name name →
    (∃ segment ∈ name.segments, ∃ n, segment.kind = .app n ∧ 3 < n) →
      ∃ before n value rest, name.segments = before ++ ⟨.app n, value⟩ :: rest ∧ 3 < n ∧
        Name.IsAssigned ⟨before⟩ ∧ ∀ tid,
          format.decode tid ((Cursor.ofOctets octets).advance start) =
            .error (.unknownField (Tid.nameSegment.element (SegmentKind.app n).tlvType)
              (start + Header.width + Name.sizeOfSegments before))

variable {e : Element} {c : Cursor}

/-- The element of a field that can be read back is read as the field. -/
theorem decode_of_valueOf (he : e.octets <+: c.ahead) (hvalue : format.valueOf field = .ok e.value)
    (hreadable : field.unsigned.IsReadableAs e.type) (tid : Tid) :
    format.decode tid c = .ok ⟨field.unsigned, e.size, c.advance e.size⟩ := by
  rw [← valueOf_field_unsigned] at hvalue
  exact (format.reads_decode tid).2 ⟨e, he, spells_of_valueOf hvalue hreadable, rfl, rfl⟩

/-- The element of a name that cannot be read back is refused inside the name. -/
theorem decode_of_valueOf_name {name : Name} (he : e.octets <+: c.ahead)
    (hvalue : format.valueOf (.name name) = .ok e.value) (hname : ¬name.IsAssigned) :
    ∃ before n value rest, name.segments = before ++ ⟨.app n, value⟩ :: rest ∧ 3 < n ∧
      Name.IsAssigned ⟨before⟩ ∧ ∀ tid, format.decode tid c =
        .error (.unknownField (Tid.nameSegment.element (SegmentKind.app n).tlvType)
          (c.position + Header.width + Name.sizeOfSegments before)) := by
  cases format with
  | name =>
      obtain ⟨segments⟩ := name
      obtain ⟨before, n, value, rest, rfl, hn, hbefore⟩ := Name.exists_first_app hname
      refine ⟨before, n, value, rest, rfl, hn, hbefore, ?_⟩
      intro tid
      have hdecode := Name.decode_of_app he (Except.ok.inj hvalue).symm hbefore hn
      rw [decode, hdecode, Result.map_error]
  | _ => cases hvalue

/-- What a field was written as is read behind any octets and in front of any others. -/
theorem readsBack_of_valueOf (hvalue : format.valueOf field = .ok e.value)
    (before suffix : Octets) :
    format.ReadsBack field e.type (before ++ e.octets ++ suffix) before.length e.size := by
  have hc : ((Cursor.ofOctets (before ++ e.octets ++ suffix)).advance before.length).IsAt
      (before ++ e.octets ++ suffix) before.length := by
    refine ⟨?_, rfl⟩
    rw [List.append_assoc, List.length_append]
    exact Nat.le_add_right _ _
  have he : e.octets <+:
      ((Cursor.ofOctets (before ++ e.octets ++ suffix)).advance before.length).ahead := by
    rw [hc.ahead, List.append_assoc, List.drop_left]
    exact List.prefix_append _ _
  constructor
  · intro hreadable tid
    rw [decode_of_valueOf he hvalue hreadable tid, Cursor.advance_advance]
  · intro name hfield hbeyond
    subst hfield
    obtain ⟨segment, hsegment, n, hkind, hn⟩ := hbeyond
    have hname : ¬name.IsAssigned := by
      intro hassigned
      have hle := Name.isAssigned_iff.1 hassigned segment hsegment n hkind
      exact absurd hn (UInt8.not_lt.2 hle)
    have hrefused := decode_of_valueOf_name he hvalue hname
    rwa [hc.position] at hrefused

/-- A format refuses a field of another kind in all it does. It shows a field of its kind, and says
its size: if no header can count the value, the field is not written; else exactly the octets of
that size are added to the output, and they are read back where they stand, whatever comes behind
them. The output stays as it was when nothing is written. -/
theorem encode_reads_back (format : Format) (field : Field) (type : UInt16) (out : Output) :
    (field.format ≠ format →
      (format.encode field type).run out = (.error (format.mismatch field), out) ∧
      format.encodedSize field = .error (format.mismatch field) ∧
      format.render field = .error (format.mismatch field)) ∧
    (field.format = format →
      (∃ text, format.render field = .ok text) ∧
      ∃ size, format.encodedSize field = .ok size ∧ Header.width ≤ size ∧
        (Header.maxLength < size - Header.width →
          (format.encode field type).run out =
            (.error (.messageTooLarge (size - Header.width) Header.maxLength), out)) ∧
        (size - Header.width ≤ Header.maxLength →
          ∃ octets after, (format.encode field type).run out = (.ok size, after) ∧
            after.octets = out.octets ++ octets ∧ octets.length = size ∧
            ∀ suffix, format.ReadsBack field type (after.octets ++ suffix) out.octets.length
              size)) := by
  have hemits := emits_encode format field type
  constructor
  · intro hkind
    rw [valueOf_of_ne hkind] at hemits
    refine ⟨hemits.run_of_error out, ?_, render_of_ne hkind⟩
    rw [encodedSize_eq, valueOf_of_ne hkind, Result.map_error]
  · intro hkind
    subst hkind
    obtain ⟨value, hvalue⟩ := exists_valueOf field
    have hsize : field.format.encodedSize field = .ok (Header.width + value.length) := by
      rw [encodedSize_eq, hvalue, Result.map_ok]
    rw [hvalue, Result.ok_bind] at hemits
    refine ⟨exists_render field, _, hsize, Nat.le_add_right _ _, ?_⟩
    rw [Nat.add_sub_cancel_left]
    constructor
    · intro hlong
      rw [Element.make_of_not_fits (Nat.not_le.2 hlong)] at hemits
      exact hemits.run_of_error out
    · intro hfits
      -- The element that is written is the one to be read back.
      let e : Element := ⟨type, value, hfits⟩
      rw [Element.make_of_fits hfits] at hemits
      refine ⟨e.octets, out.append e.octets, hemits.run_of_ok out, Output.octets_append _ _,
        Element.length_octets e, ?_⟩
      intro suffix
      rw [Output.octets_append]
      exact readsBack_of_valueOf (e := e) hvalue out.octets suffix

/-- An algorithm with a key identifier and a signature. -/
def signedField : Field :=
  .validationAlgorithm
    { suite := .hmacSha256, keyId := some [9], publicKey := none, signingTime := none,
      signature := some [7] }

/-- A name whose second segment is of the fifth application kind. -/
def beyondField : Field := .name ⟨[⟨.name, [7]⟩, ⟨.app 4, [8]⟩]⟩

theorem encode_reads_back_behind_octet :
    (payload.encode beyondField TlvType.name).run (.ofOctets [5]) =
        (.error (.typeMismatch "PayloadCodec" "Name"), .ofOctets [5]) ∧
      (∃ after, (validationAlgorithm.encode signedField 4).run (.ofOctets [5]) = (.ok 9, after) ∧
        ∀ suffix tid,
          validationAlgorithm.decode tid ((Cursor.ofOctets (after.octets ++ suffix)).advance 1) =
            .ok ⟨signedField.unsigned, 9, (Cursor.ofOctets (after.octets ++ suffix)).advance 10⟩) ∧
      ∃ after, (name.encode beyondField TlvType.name).run (.ofOctets [5]) = (.ok 14, after) ∧
        ∀ suffix tid,
          name.decode tid ((Cursor.ofOctets (after.octets ++ suffix)).advance 1) =
            .error (.unknownField (Tid.nameSegment.element 0x1004) 10) := by
  refine ⟨?_, ?_, ?_⟩
  · obtain ⟨hrefused, -⟩ := encode_reads_back payload beyondField TlvType.name (.ofOctets [5])
    exact (hrefused (by decide)).1
  · obtain ⟨-, haccepted⟩ := encode_reads_back validationAlgorithm signedField 4 (.ofOctets [5])
    obtain ⟨-, size, hsize, -, -, hwritten⟩ := haccepted rfl
    cases hsize
    obtain ⟨octets, after, hrun, -, -, hreads⟩ := hwritten (by decide)
    exact ⟨after, hrun, fun suffix => (hreads suffix).same ⟨rfl, rfl, rfl⟩⟩
  · obtain ⟨-, haccepted⟩ := encode_reads_back name beyondField TlvType.name (.ofOctets [5])
    obtain ⟨-, size, hsize, -, -, hwritten⟩ := haccepted rfl
    cases hsize
    obtain ⟨octets, after, hrun, -, -, hreads⟩ := hwritten (by decide)
    refine ⟨after, hrun, ?_⟩
    intro suffix
    obtain ⟨before, n, value, rest, hsplit, -, -, hdecode⟩ :=
      (hreads suffix).refused _ rfl ⟨⟨.app 4, [8]⟩, by decide, 4, rfl, by decide⟩
    match before with
    | [] => cases hsplit
    | [_] =>
        cases hsplit
        exact hdecode
    | _ :: _ :: before =>
        have hlength := congrArg List.length hsplit
        simp at hlength

end Format

end CcnxPacket
