import CcnxPacket.Proofs.Machine.Writer
import CcnxPacket.Proofs.Writing.Message

/-!
# Writing fields and messages on the machine

The sizes that are announced before anything is written, and the octets that are said to have been
written, are sums over segments, parts and fields. None of them is larger than what the value takes
on the wire (`wireSize`), so with room for that the machine does not stop, and what a container says
it wrote is what was announced.
-/

namespace CcnxPacket

namespace Machine

open Writing (reserve append compute)

/-! ### Fields -/

/-- The octets that segments take as elements, behind a total of others. -/
def segmentsSize (total : Nat) : List Segment → Except Fault Nat
  | [] => return total
  | segment :: rest => do
    let size ← add Header.width segment.value.length
    let total ← add total size
    segmentsSize total rest

/-- The type of the segments of the kind. -/
def segmentType : SegmentKind → Except Fault UInt16
  | .app n => addWord 0x1000 n.toUInt16
  | kind => return kind.tlvType

/-- Writes each segment as an element. -/
def writeSegments : List Segment → Writing Unit
  | [] => return
  | segment :: rest => do
    let type ← segmentType segment.kind
    let _ ← writeElement type segment.value
    writeSegments rest

/-- Writes the name as an element and returns its size. -/
def encodeName (name : Name) (type : UInt16) : Writing Nat := do
  let inner ← segmentsSize 0 name.segments
  writeHeader type inner
  writeSegments name.segments
  add Header.width inner

/-- The hash value as it is written, put in front of octets that are zero. -/
def hashOctets (value : UInt64) : Except Fault Octets := do
  let zeros := List.replicate 32 0
  let front ← slice zeros 0 hashValueWidth
  let digest ← copyTo front.length (bigEndian hashValueWidth value.toNat)
  return digest ++ zeros.drop hashValueWidth

/-- The octets that an optional element takes. -/
def optionSize : Option Octets → Except Fault Nat
  | none => return 0
  | some value => add Header.width value.length

/-- The octets that key identifier, public key and signing time take. -/
def partsSize (alg : ValidationAlgorithm) : Except Fault Nat := do
  let keyId ← optionSize alg.keyId
  let publicKey ← optionSize alg.publicKey
  let signingTime ← optionSize alg.signingTimeOctets
  let keys ← add keyId publicKey
  add keys signingTime

/-- Writes an element when there is a value for it. -/
def writeOption (type : UInt16) : Option Octets → Writing Unit
  | none => return
  | some value => do
    let _ ← writeElement type value

/-- Writes the suite's element and returns its size. -/
def encodeAlgorithm (alg : ValidationAlgorithm) (type : UInt16) : Writing Nat := do
  let inner ← partsSize alg
  writeHeader type inner
  writeOption TlvType.keyId alg.keyId
  writeOption TlvType.publicKey alg.publicKey
  writeOption TlvType.signingTime alg.signingTimeOctets
  add Header.width inner

/-- Appends the field as an element of the given type and returns the octets it took. -/
def encodeField (format : Format) (field : Field) (type : UInt16) : Writing Nat :=
  match format, field with
  | .name, .name value => encodeName value type
  | .hashValue, .hashValue value => do
    let octets ← hashOctets value
    writeElement type octets
  | .payload, .payload octets => writeElement type octets
  | .payloadType, .payloadType value => writeElement type [value.octet]
  | .timestamp, .timestamp time => writeElement type (bigEndian timestampWidth time.toNat)
  | .validationAlgorithm, .validationAlgorithm alg => encodeAlgorithm alg type
  | format, field => throw (format.mismatch field)

/-- The octets that `encodeField` takes for the field. -/
def fieldSize (format : Format) (field : Field) : Run Nat :=
  match format, field with
  | .name, .name value => do
    let inner ← segmentsSize 0 value.segments
    add Header.width inner
  | .hashValue, .hashValue _ => add Header.width 32
  | .payload, .payload octets => add Header.width octets.length
  | .payloadType, .payloadType _ => add Header.width 1
  | .timestamp, .timestamp _ => add Header.width timestampWidth
  | .validationAlgorithm, .validationAlgorithm alg => do
    let inner ← partsSize alg
    add Header.width inner
  | format, field => throw (format.mismatch field)

/-! ### Messages -/

/-- The octets of a container with the fields behind a total of others. -/
def containerSize (registry : Registry) (container : Tid) (total : Nat) :
    List TypedField → Run Nat
  | [] => return total
  | (type, field) :: rest => do
    let format ← registry.lookup (container.element type)
    let size ← fieldSize format field
    let total ← add total size
    containerSize registry container total rest

/-- Writes the fields of a container, and returns the octets written with those before. -/
def writeFields (registry : Registry) (container : Tid) (written : Nat) :
    List TypedField → Writing Nat
  | [] => return written
  | (type, field) :: rest => do
    let format ← registry.lookup (container.element type)
    let size ← encodeField format field type
    let written ← add written size
    writeFields registry container written rest

/-- Writes a container with its fields and returns its size, which has to be what was announced. -/
def writeContainer (registry : Registry) (container : Tid) (type : UInt16)
    (fields : List TypedField) : Writing Nat := do
  let total ← compute (containerSize registry container Header.width fields)
  reserve total
  let inner ← sub total Header.width
  writeHeader type inner
  let written ← writeFields registry container Header.width fields
  let _ ← demand .assertion (written = total)
  return written

/-- The octets that the message takes. -/
def messageSize (registry : Registry) (message : Message) : Run Nat :=
  containerSize registry message.tid Header.width message.fields

/-- Appends the message and returns the octets it took. -/
def encodeMessage (registry : Registry) (message : Message) : Writing Nat :=
  writeContainer registry message.tid message.tlvType message.fields

/-- The octets of the message, for which as much memory is set aside as they take. -/
def messageToOctets (registry : Registry) (message : Message) : Run Octets := do
  let _ ← messageSize registry message
  (encodeMessage registry message).toOctets

end Machine

/-! ### Sizes on the wire -/

/-- The octets that the field takes, in the only format that takes it. -/
def Field.wireSize : Field → Nat
  | .name value => Header.width + value.segmentsSize
  | .hashValue _ => Header.width + 32
  | .payload octets => Header.width + octets.length
  | .payloadType _ => Header.width + 1
  | .timestamp _ => Header.width + timestampWidth
  | .validationAlgorithm alg => Header.width + alg.partsSize

/-- The octets that the fields take. -/
def fieldsWireSize : List TypedField → Nat
  | [] => 0
  | field :: rest => field.2.wireSize + fieldsWireSize rest

/-- The octets that the message takes. -/
def Message.wireSize (message : Message) : Nat := Header.width + fieldsWireSize message.fields

/-- The size that a format says is that of the element. -/
theorem Format.encodedSize_eq_ok {format : Format} {field : Field} {n : Nat}
    (h : format.encodedSize field = .ok n) : n = field.wireSize := by
  cases format <;> cases field <;> cases h <;> rfl

/-- The value that a field is written as takes what is left of the field behind a header. -/
theorem Format.size_of_valueOf {format : Format} {field : Field} {value : Octets}
    (h : format.valueOf field = .ok value) : Header.width + value.length = field.wireSize := by
  apply @Format.encodedSize_eq_ok format field
  rw [Format.encodedSize_eq, h]
  rfl

theorem Format.size_of_make {format : Format} {field : Field} {type : UInt16} {e : Element}
    (h : format.valueOf field >>= Element.make type = .ok e) : e.size = field.wireSize := by
  obtain ⟨value, hvalue, hmake⟩ := Result.bind_eq_ok_iff.1 h
  obtain ⟨-, rfl⟩ := Element.make_eq_ok_iff.1 hmake
  exact Format.size_of_valueOf hvalue

namespace Machine

open Writer (Grows)
open Writing (Mirrors)

/-! ### Fields -/

/-- The machine adds up the sizes of segments. -/
theorem segmentsSize_eq {total : Nat} {segments : List Segment}
    (h : total + Name.sizeOfSegments segments < UInt64.size) :
    segmentsSize total segments = .ok (total + Name.sizeOfSegments segments) := by
  induction segments generalizing total with
  | nil => rfl
  | cons segment segments ih =>
      rw [Name.sizeOfSegments] at h
      rw [segmentsSize, add_eq (by omega), Name.sizeOfSegments, ← Nat.add_assoc]
      change (add total _ >>= fun total => segmentsSize total segments) = _
      rw [add_eq (by omega)]
      exact ih (by omega)

theorem segmentsSize_name {name : Name} (h : name.segmentsSize < UInt64.size) :
    segmentsSize 0 name.segments = .ok name.segmentsSize := by
  have hsum : 0 + Name.sizeOfSegments name.segments = name.segmentsSize := Nat.zero_add _
  rw [segmentsSize_eq (by omega), hsum]

/-- The arithmetic of the types of application segments stays in range. -/
theorem segmentType_eq (kind : SegmentKind) : segmentType kind = .ok kind.tlvType := by
  cases kind with
  | app n =>
      have hlt := n.toNat_lt
      have hsize : UInt16.size = 65536 := rfl
      have hfirst : (0x1000 : UInt16).toNat = 4096 := rfl
      exact addWord_eq (by rw [UInt8.toNat_toUInt16]; omega)
  | _ => rfl

/-- The machine writes segments as they are written. -/
theorem mirrors_writeSegments (segments : List Segment) :
    Mirrors (Name.sizeOfSegments segments) (writeSegments segments)
      (Name.writeSegments segments) := by
  induction segments with
  | nil => exact .pure ()
  | cons segment segments ih =>
      apply Mirrors.step (segmentType_eq segment.kind)
      apply (mirrors_writeElement _ _).bind (grows_writeElement _ _) (fun _ => ih)
      · exact Nat.le_add_right _ _
      · exact Nat.le_refl _

/-- The machine writes a name as it is written. -/
theorem mirrors_encodeName (name : Name) (type : UInt16) :
    Mirrors (Header.width + name.segmentsSize) (encodeName name type) (name.encode type) := by
  apply Mirrors.of_room
  intro hroom
  apply Mirrors.step (segmentsSize_name (by omega))
  apply (mirrors_writeHeader _ _).bind (grows_writeHeader _ _) _ (Nat.le_add_right _ _)
    (Nat.le_refl _)
  intro _
  exact (mirrors_writeSegments name.segments).bind_last (add_eq hroom)

theorem optionSize_eq {value : Option Octets}
    (h : ValidationAlgorithm.optionSize value < UInt64.size) :
    optionSize value = .ok (ValidationAlgorithm.optionSize value) := by
  cases value with
  | none => rfl
  | some octets => exact add_eq h

/-- The machine computes the size of an algorithm's parts. -/
theorem partsSize_eq {alg : ValidationAlgorithm} (h : alg.partsSize < UInt64.size) :
    partsSize alg = .ok alg.partsSize := by
  unfold ValidationAlgorithm.partsSize at *
  unfold partsSize
  rw [optionSize_eq (by omega), optionSize_eq (by omega), optionSize_eq (by omega)]
  change (add _ _ >>= fun keys => add keys _) = _
  rw [add_eq (by omega)]
  exact add_eq h

/-- The machine writes a part of an algorithm as it is written. -/
theorem mirrors_writeOption (type : UInt16) (value : Option Octets) :
    Mirrors (ValidationAlgorithm.optionSize value) (writeOption type value)
      (ValidationAlgorithm.writeOption type value) := by
  cases value with
  | none => exact .pure ()
  | some octets =>
      exact (mirrors_writeElement type octets).bind (grows_writeElement type octets)
        (fun _ => .pure ()) (Nat.le_refl _) (Nat.le_of_eq (Nat.add_zero _))

theorem grows_writeOption (type : UInt16) (value : Option Octets) :
    Grows (ValidationAlgorithm.optionSize value)
      (ValidationAlgorithm.writeOption type value) := by
  cases value with
  | none => exact .of_yields (Writer.yields_pure ()) (Nat.zero_le _)
  | some octets =>
      apply Grows.of_emits ((Writer.emits_writeElement type octets).bind_pure fun _ => ())
      intro e he
      obtain ⟨-, hvalue⟩ := Element.make_eq_ok_iff.1 he
      exact Nat.le_of_eq (Element.size_of_value hvalue)

/-- The machine writes an algorithm as it is written. -/
theorem mirrors_encodeAlgorithm (alg : ValidationAlgorithm) (type : UInt16) :
    Mirrors (Header.width + alg.partsSize) (encodeAlgorithm alg type) (alg.encode type) := by
  apply Mirrors.of_room
  intro hroom
  have hsize : alg.partsSize = ValidationAlgorithm.optionSize alg.keyId +
      ValidationAlgorithm.optionSize alg.publicKey +
        ValidationAlgorithm.optionSize alg.signingTimeOctets := rfl
  apply Mirrors.step (partsSize_eq (by omega))
  apply (mirrors_writeHeader _ _).bind (grows_writeHeader _ _) _ (Nat.le_add_right _ _)
    (Nat.le_refl _)
  intro _
  apply (mirrors_writeOption _ _).bind (grows_writeOption _ _) _ (by omega)
    (Nat.le_of_eq (hsize.trans (Nat.add_assoc _ _ _)).symm)
  intro _
  apply (mirrors_writeOption _ _).bind (grows_writeOption _ _) _ (Nat.le_add_right _ _)
    (Nat.le_refl _)
  intro _
  exact (mirrors_writeOption _ _).bind_last (add_eq hroom)

theorem hashOctets_eq (value : UInt64) : hashOctets value = .ok (hashValueOctets value) := by
  have hfront : slice (List.replicate 32 0) 0 hashValueWidth =
      .ok (List.replicate hashValueWidth 0) := rfl
  have hdigest : (bigEndian hashValueWidth value.toNat).length =
      (List.replicate hashValueWidth (0 : UInt8)).length := by
    rw [length_bigEndian, List.length_replicate]
  rw [hashOctets, hfront]
  change (copyTo (List.replicate hashValueWidth (0 : UInt8)).length
    (bigEndian hashValueWidth value.toNat) >>= fun digest =>
      pure (digest ++ (List.replicate 32 0).drop hashValueWidth)) = .ok (hashValueOctets value)
  rw [copyTo_eq hdigest]
  rfl

/-- The machine writes a field as it is written. -/
theorem mirrors_encodeField (format : Format) (field : Field) (type : UInt16) :
    Mirrors field.wireSize (encodeField format field type) (format.encode field type) := by
  cases format with
  | name =>
      cases field with
      | name value => exact mirrors_encodeName value type
      | _ => exact .throw _
  | hashValue =>
      cases field with
      | hashValue number =>
          apply Mirrors.step (hashOctets_eq number)
          exact mirrors_writeElement type (hashValueOctets number)
      | _ => exact .throw _
  | payload =>
      cases field with
      | payload octets => exact mirrors_writeElement type octets
      | _ => exact .throw _
  | payloadType =>
      cases field with
      | payloadType kind => exact mirrors_writeElement type [kind.octet]
      | _ => exact .throw _
  | timestamp =>
      cases field with
      | timestamp time =>
          exact mirrors_writeElement type (bigEndian timestampWidth time.toNat)
      | _ => exact .throw _
  | validationAlgorithm =>
      cases field with
      | validationAlgorithm alg => exact mirrors_encodeAlgorithm alg type
      | _ => exact .throw _

theorem grows_encodeField (format : Format) (field : Field) (type : UInt16) :
    Grows field.wireSize (format.encode field type) :=
  .of_emits (format.emits_encode field type) fun _ he => Nat.le_of_eq (Format.size_of_make he)

/-- The machine computes the size of a field. -/
theorem runsAs_fieldSize {format : Format} {field : Field} (h : field.wireSize < UInt64.size) :
    RunsAs id (fieldSize format field) (format.encodedSize field) := by
  cases format with
  | name =>
      cases field with
      | name value =>
          rw [Field.wireSize] at h
          exact RunsAs.step (segmentsSize_name (by omega)) (.last (add_eq h))
      | _ => exact .throw _
  | hashValue =>
      cases field with
      | hashValue number => exact .last (add_eq h)
      | _ => exact .throw _
  | payload =>
      cases field with
      | payload octets => exact .last (add_eq h)
      | _ => exact .throw _
  | payloadType =>
      cases field with
      | payloadType kind => exact .last (add_eq h)
      | _ => exact .throw _
  | timestamp =>
      cases field with
      | timestamp time => exact .last (add_eq h)
      | _ => exact .throw _
  | validationAlgorithm =>
      cases field with
      | validationAlgorithm alg =>
          rw [Field.wireSize] at h
          exact RunsAs.step (partsSize_eq (by omega)) (.last (add_eq h))
      | _ => exact .throw _

/-! ### Messages -/

variable {registry : Registry} {container : Tid} {fields : List TypedField}

theorem fieldsWireSize_cons (type : UInt16) (field : Field) (fields : List TypedField) :
    fieldsWireSize ((type, field) :: fields) = field.wireSize + fieldsWireSize fields := rfl

/-- The machine adds up the sizes of fields. -/
theorem runsAs_containerSize {total : Nat} (h : total + fieldsWireSize fields < UInt64.size) :
    RunsAs (total + ·) (containerSize registry container total fields)
      (fieldsSize registry container fields) := by
  induction fields generalizing total with
  | nil => exact .pure rfl
  | cons head fields ih =>
      obtain ⟨type, field⟩ := head
      rw [fieldsWireSize_cons] at h
      apply (RunsAs.lift _).bind
      intro format _
      apply (runsAs_fieldSize (by omega)).bind
      intro size hsize
      obtain rfl := Format.encodedSize_eq_ok hsize
      apply RunsAs.step (add_eq (by dsimp only [id]; omega))
      exact (ih (by dsimp only [id]; omega)).through fun rest => Nat.add_assoc _ _ _

/-- The size of fields is that of their elements. -/
theorem fieldsSize_eq_ok {size : Nat} (h : fieldsSize registry container fields = .ok size) :
    size = fieldsWireSize fields := by
  induction fields generalizing size with
  | nil =>
      cases h
      rfl
  | cons head fields ih =>
      obtain ⟨type, field⟩ := head
      simp only [fieldsSize, Result.bind_eq_ok_iff, Result.pure_eq_ok, Except.ok.injEq] at h
      obtain ⟨format, -, first, hfirst, rest, hrest, rfl⟩ := h
      rw [Format.encodedSize_eq_ok hfirst, ih hrest]
      rfl

/-- A format says that it wrote what the field takes on the wire. -/
theorem eq_wireSize_of_run {format : Format} {field : Field} {type : UInt16} {size : Nat}
    {out after : Output} (h : (format.encode field type).run out = (.ok size, after)) :
    size = field.wireSize := by
  obtain ⟨e, he, rfl⟩ := (format.emits_encode field type).exists_of_run h
  exact Format.size_of_make he

/-- Writing fields takes as many octets as was said before. -/
theorem eq_fieldsWireSize_of_run {size : Nat} {out after : Output}
    (h : (CcnxPacket.writeFields registry container fields).run out = (.ok size, after)) :
    size = fieldsWireSize fields := by
  induction fields generalizing size out with
  | nil =>
      cases h
      rfl
  | cons head fields ih =>
      obtain ⟨type, field⟩ := head
      obtain ⟨format, _, -, h⟩ := Writer.exists_of_run_bind h
      obtain ⟨first, _, hfirst, h⟩ := Writer.exists_of_run_bind h
      obtain ⟨rest, _, hrest, h⟩ := Writer.exists_of_run_bind h
      cases h
      rw [eq_wireSize_of_run hfirst, ih hrest]
      rfl

/-- What was written before the fields is counted with what they take. -/
theorem mirrors_writeFields {written : Nat}
    (h : written + fieldsWireSize fields < UInt64.size) :
    Mirrors (fieldsWireSize fields) (writeFields registry container written fields)
      (CcnxPacket.writeFields registry container fields >>= fun size => pure (written + size)) := by
  induction fields generalizing written with
  | nil => exact .pure written
  | cons head fields ih =>
      obtain ⟨type, field⟩ := head
      rw [fieldsWireSize_cons] at h
      simp only [writeFields, CcnxPacket.writeFields, bind_assoc, pure_bind]
      apply Mirrors.lift_bind
      intro format _
      apply (mirrors_encodeField format field type).bind_of_ok (grows_encodeField format field type)
        _ (Nat.le_add_right _ _) (Nat.le_refl _)
      intro size hsize
      obtain ⟨out, after, hrun⟩ := hsize
      obtain rfl := eq_wireSize_of_run hrun
      apply Mirrors.step (add_eq (by omega))
      simpa only [Nat.add_assoc] using ih (show written + field.wireSize + _ < _ by omega)

/-- A container announces what it takes, and says in the end that it wrote as much. -/
theorem mirrors_writeContainer (type : UInt16) :
    Mirrors (Header.width + fieldsWireSize fields) (writeContainer registry container type fields)
      (CcnxPacket.writeContainer registry container type fields) := by
  apply Mirrors.of_room
  intro hroom
  apply Mirrors.compute_bind (runsAs_containerSize hroom)
  intro size hsize
  obtain rfl := fieldsSize_eq_ok hsize
  apply Mirrors.reserve_bind (Nat.le_refl _)
  apply Mirrors.step (sub_eq (Nat.le_add_right _ _))
  rw [Nat.add_sub_cancel_left]
  apply (mirrors_writeHeader _ _).bind (grows_writeHeader _ _) _ (Nat.le_add_right _ _)
    (Nat.le_refl _)
  intro _
  have hwritten : Mirrors (fieldsWireSize fields)
      (writeFields registry container Header.width fields)
      (CcnxPacket.writeFields registry container fields >>= fun size =>
        pure (Header.width + size)) :=
    mirrors_writeFields hroom
  rw [← bind_pure (CcnxPacket.writeFields registry container fields >>= _)]
  apply hwritten.bind_end
  intro written hsuccess out
  -- The assertion at the end holds, since fields take the octets that were counted before.
  obtain ⟨first, after, hrun⟩ := hsuccess
  obtain ⟨size, middle, hsize, hrest⟩ := Writer.exists_of_run_bind hrun
  obtain rfl := eq_fieldsWireSize_of_run hsize
  cases hrest
  rw [demand_eq rfl]
  rfl

/-! ### Whole messages -/

/-- The machine computes the size of a message. -/
theorem runsAs_messageSize {message : Message} (h : message.wireSize < UInt64.size) :
    RunsAs id (messageSize registry message) (message.encodedSize registry) := by
  have hsize : RunsAs (Header.width + ·) (messageSize registry message)
      (fieldsSize registry message.tid message.fields) := runsAs_containerSize h
  unfold RunsAs at *
  rw [hsize, Message.encodedSize]
  cases fieldsSize registry message.tid message.fields <;> rfl

/-- The machine writes a message as it is written. -/
theorem mirrors_encodeMessage (message : Message) :
    Mirrors message.wireSize (encodeMessage registry message) (message.encode registry) :=
  mirrors_writeContainer message.tlvType

/-- A message without a size has no octets either. -/
theorem runsAs_messageToOctets {message : Message} (h : message.wireSize < UInt64.size) :
    RunsAs id (messageToOctets registry message) (message.toOctets registry) := by
  have hbind : message.toOctets registry =
      message.encodedSize registry >>= fun _ => message.toOctets registry := by
    rw [Message.encodedSize, fieldsSize_eq, Message.toOctets,
      (message.emits_encode registry).toOctets_eq, Message.element]
    cases fieldParts registry message.tid message.fields <;> rfl
  rw [hbind]
  apply (runsAs_messageSize h).bind
  intro size _
  exact (mirrors_encodeMessage message).runsAs_toOctets h

end Machine

end CcnxPacket
