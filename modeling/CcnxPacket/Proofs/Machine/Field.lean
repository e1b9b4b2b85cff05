import CcnxPacket.Proofs.Machine.Reader
import CcnxPacket.Proofs.Spelling.Field

/-!
# Reading fields on the machine

The machine has one loop for the elements of a container, and what the containers do differently are
its parts (`Loop`). The loop counts the octets it has read, and stops the machine unless the counter
grows by a header at least and stays within the container. That it does rests on the readers of the
elements: each of them returns the size that the element's header says.
-/

namespace CcnxPacket

namespace Machine

/-- What a reader of an element returns: its value, the octets of the element, and the reader after
it. -/
structure Read (α : Type) where
  value : α
  consumed : Nat
  next : Reader

/-- What was read with its value changed. -/
def Read.map {α β : Type} (f : α → β) (read : Read α) : Read β :=
  { value := f read.value, consumed := read.consumed, next := read.next }

/-! ### Loops -/

/-- What a container does with each of its elements. -/
structure Loop (σ : Type) where
  /-- Looks at the header. -/
  look : Reader → Run (Header × Reader)
  /-- The counter behind the element. -/
  reach : Nat → Header → Except Fault Nat
  /-- Reads the element, whose header is at the offset, into the state. -/
  visit : σ → Header → Nat → Reader → Run (Read σ)

/-- Reads the elements of a container that come after the first `bytesRead` octets of its value. -/
def Loop.run {σ : Type} (loop : Loop σ) (container : Tid) (length bytesRead : Nat) (state : σ)
    (r : Reader) : Run (σ × Reader) :=
  if bytesRead < length then do
    let offset := r.position
    let (header, r) ← loop.look r
    let stop ← loop.reach bytesRead header
    if length < stop then throw (.lengthOverflow (container.element header.type) offset length)
    let read ← loop.visit state header offset r
    let next ← add bytesRead read.consumed
    let ⟨_⟩ ← demand .counter (bytesRead + Header.width ≤ next ∧ next ≤ length)
    loop.run container length next read.value read.next
  else return (state, r)
termination_by length - bytesRead
decreasing_by
  have hwidth : Header.width = 4 := rfl
  omega

/-- Counts an element that was read from its header on. -/
def counted {α : Type} (header : Header) (value : α) (next : Reader) : Run (Read α) := do
  let consumed ← add Header.width header.length.toNat
  return { value, consumed, next }

/-- The counter behind an element, the header counted first. -/
def reachFromHeader (bytesRead : Nat) (header : Header) : Except Fault Nat := do
  let value ← add bytesRead Header.width
  add value header.length.toNat

/-! ### Fields -/

/-- The kind of the segments with the given type, when the format has one. -/
def segmentKind? (type : UInt16) : Except Fault (Option SegmentKind) :=
  if 0x1000 ≤ type ∧ type ≤ 0x1003 then do
    let n ← subWord type 0x1000
    return some (.app n.toUInt8)
  else return SegmentKind.ofTlvType? type

/-- The segments of a name. -/
def nameLoop : Loop (List Segment) where
  look := Moving.readHeader.applyTo
  reach := reachFromHeader
  visit segments header offset r := do
    match ← segmentKind? header.type with
    | none => throw (.unknownField (Tid.nameSegment.element header.type) offset)
    | some kind => do
      let (value, r) ← (Moving.read header.length.toNat).applyTo r
      counted header (⟨kind, value⟩ :: segments) r

/-- Reads a name. -/
def decodeName (r : Reader) : Run (Read Name) := do
  let (header, r) ← Moving.readHeader.applyTo r
  let (segments, r) ← nameLoop.run Tid.nameSegment header.length.toNat 0 [] r
  counted header ⟨segments.reverse⟩ r

/-- The parts of a validation algorithm. -/
def partLoop (tid : Tid) : Loop ValidationAlgorithm.Parts where
  look := Moving.readHeader.applyTo
  reach := reachFromHeader
  visit parts header offset r := do
    let (value, r) ← (Moving.read header.length.toNat).applyTo r
    let part := tid.element header.type
    if header.type = TlvType.keyId then
      if parts.keyId.isSome then throw (.duplicateField part offset)
      counted header { parts with keyId := some value } r
    else if header.type = TlvType.publicKey then
      if parts.publicKey.isSome then throw (.duplicateField part offset)
      counted header { parts with publicKey := some value } r
    else if header.type = TlvType.signingTime then
      if parts.signingTime.isSome then throw (.duplicateField part offset)
      if value.length ≠ timestampWidth then
        throw (.invalidFieldLength part value.length .timestampNotEight)
      counted header { parts with signingTime := some (UInt64.ofNat (ofBigEndian value)) } r
    else throw (.unknownField part offset)

/-- Reads the element of a suite. -/
def decodeAlgorithm (tid : Tid) (r : Reader) : Run (Read ValidationAlgorithm) := do
  let (header, r) ← Moving.readHeader.applyTo r
  match Suite.ofTlvType? header.type with
  | none => throw (.unknownSuite header.type)
  | some suite =>
    let (parts, r) ← (partLoop tid).run tid header.length.toNat 0 {} r
    let alg ← ValidationAlgorithm.make suite parts.keyId parts.publicKey parts.signingTime
    counted header alg r

/-- Reads a hash value. -/
def decodeHashValue (tid : Tid) (r : Reader) : Run (Read UInt64) := do
  let (header, r) ← Moving.readHeader.applyTo r
  let length := header.length.toNat
  if length < hashValueWidth then throw (.invalidFieldLength tid length .hashTooShort)
  let (value, r) ← Moving.readWord64.applyTo r
  let padding ← sub length hashValueWidth
  let (_, r) ← (Moving.skip padding).applyTo r
  let consumed ← add length Header.width
  return { value, consumed, next := r }

/-- Reads a payload. -/
def decodePayload (r : Reader) : Run (Read Octets) := do
  let (header, r) ← Moving.readHeader.applyTo r
  let (value, r) ← (Moving.read header.length.toNat).applyTo r
  let consumed ← add Header.width value.length
  return { value, consumed, next := r }

/-- Reads a payload type. -/
def decodePayloadType (tid : Tid) (r : Reader) : Run (Read PayloadType) := do
  let (header, r) ← Moving.readHeader.applyTo r
  if header.length ≠ 1 then
    throw (.invalidFieldLength tid header.length.toNat .payloadTypeNotOne)
  let (octet, r) ← Moving.readOctet.applyTo r
  match PayloadType.ofOctet? octet with
  | none => throw (.invalidField tid .unknownPayloadType)
  | some value =>
    let consumed ← add Header.width 1
    return { value, consumed, next := r }

/-- Reads a time. -/
def decodeTimestamp (tid : Tid) (r : Reader) : Run (Read UInt64) := do
  let (header, r) ← Moving.readHeader.applyTo r
  if header.length.toNat ≠ timestampWidth then
    throw (.invalidFieldLength tid header.length.toNat .timestampNotEight)
  let (value, r) ← Moving.readWord64.applyTo r
  let consumed ← add Header.width timestampWidth
  return { value, consumed, next := r }

/-- Reads a field of the format's kind. -/
def decodeField (format : Format) (tid : Tid) (r : Reader) : Run (Read Field) :=
  match format with
  | .name => return (← decodeName r).map .name
  | .hashValue => return (← decodeHashValue tid r).map .hashValue
  | .payload => return (← decodePayload r).map .payload
  | .payloadType => return (← decodePayloadType tid r).map .payloadType
  | .timestamp => return (← decodeTimestamp tid r).map .timestamp
  | .validationAlgorithm => return (← decodeAlgorithm tid r).map .validationAlgorithm

end Machine

/-- What was decoded, with a reader in place of the cursor. -/
def Decoded.withReader {α : Type} (decoded : Decoded α) : Machine.Read α :=
  { value := decoded.value, consumed := decoded.consumed, next := decoded.next.toReader }

namespace Machine

variable {σ : Type}

/-- What a visitor leaves behind the element of the header, with a reader for the cursor. -/
def visited (header : Header) (result : σ × Cursor) : Read σ :=
  { value := result.1, consumed := header.elementSize, next := result.2.toReader }

/-- The loop does with a header what the visitor does, from `passed` octets behind its start. -/
structure Loop.Follows (loop : Loop σ) (passed : Nat)
    (visit : σ → Header → Cursor → Except Error (σ × Cursor)) : Prop where
  look : ∀ c : Cursor, c.Fits →
    RunsAs (fun header => (header, (c.advance passed).toReader)) (loop.look c.toReader)
      c.peekHeader
  reach : ∀ bytesRead header, bytesRead ≤ Header.maxLength →
    loop.reach bytesRead header = .ok (bytesRead + header.elementSize)
  visit : ∀ state header (c : Cursor), c.Fits → header.octets <+: c.ahead →
    RunsAs (visited header) (loop.visit state header c.position (c.advance passed).toReader)
      (visit state header c)

/-- No element is longer than a header and the longest value. -/
theorem elementSize_le (header : Header) :
    header.elementSize ≤ Header.width + Header.maxLength := by
  have hlt := header.length.toNat_lt
  simp only [Header.elementSize, Header.width, Header.maxLength]
  omega

/-- The machine can count the octets of two elements. -/
theorem two_elements_fit : 2 * (Header.width + Header.maxLength) < UInt64.size := by decide

/-- Within a value, no element takes the machine's sum out of its range. -/
theorem add_elementSize (header : Header) {n : Nat} (h : n ≤ Header.maxLength) :
    add n header.elementSize = .ok (n + header.elementSize) := by
  have hsize := elementSize_le header
  have hfit := two_elements_fit
  exact add_eq (by omega)

/-- A round of a walk is a chain of steps. -/
theorem walk_eq_bind {container : Tid} {length left : Nat} {state : σ} {c : Cursor}
    {visit : σ → Header → Cursor → Except Error (σ × Cursor)} (hleft : left ≠ 0) :
    walk container length visit left state c =
      c.peekHeader >>= fun header =>
        if left < header.elementSize then
          .error (.lengthOverflow (container.element header.type) c.position length)
        else visit state header c >>= fun read =>
          walk container length visit (left - header.elementSize) read.1 read.2 := by
  rw [walk, if_neg hleft]
  cases c.peekHeader with
  | error e => rfl
  | ok header =>
      rw [Result.ok_bind]
      dsimp only
      congr 1
      cases visit state header c <;> rfl

/-- The loop walks as the visitor does, and its counter complements what is left. -/
theorem Loop.runsAs_walk {loop : Loop σ} {passed : Nat} {container : Tid}
    {visit : σ → Header → Cursor → Except Error (σ × Cursor)} {step : σ → Element → σ → Prop}
    (hfollows : loop.Follows passed visit) (hvisit : Visits visit step)
    {length : Nat} (hlength : length ≤ Header.maxLength) {left bytesRead : Nat} {state : σ}
    {c : Cursor} (hfits : c.Fits) (hleft : bytesRead + left = length) :
    RunsAs Cursor.withReader (loop.run container length bytesRead state c.toReader)
      (walk container length visit left state c) := by
  -- On what is left of the container: the counter and what is left always make up the length.
  induction left using Nat.strongRecOn generalizing bytesRead state c with
  | ind left ih =>
      rw [Loop.run]
      by_cases hzero : left = 0
      · rw [if_neg (by omega), walk, if_pos hzero]
        exact .pure rfl
      · rw [if_pos (by omega), walk_eq_bind hzero]
        apply (hfollows.look c hfits).bind
        intro header hpeek
        have hheader := Cursor.peekHeader_eq_ok_iff.1 hpeek
        have hcounter : bytesRead ≤ Header.maxLength := by omega
        apply RunsAs.step (hfollows.reach bytesRead header hcounter)
        by_cases hroom : left < header.elementSize
        · rw [if_pos (by omega), if_pos hroom]
          exact .throw _
        · rw [if_neg (by omega), if_neg hroom]
          apply (hfollows.visit state header c hfits hheader).bind
          intro read hread
          obtain ⟨e, rfl, -, -, hnext⟩ := (hvisit hheader).1 hread
          have hpos := e.header.elementSize_pos
          have hwidth : Header.width ≤ e.header.elementSize := Nat.le_add_right _ _
          apply RunsAs.step (add_elementSize e.header hcounter)
          apply RunsAs.step (demand_eq ⟨by omega, by omega⟩)
          apply ih (left - e.header.elementSize) (by omega) _ (by omega)
          rw [hnext]
          exact hfits.advance _

theorem add_width_length (header : Header) :
    add Header.width header.length.toNat = .ok header.elementSize := by
  have hsize := elementSize_le header
  have hfit := two_elements_fit
  exact add_eq (by rw [Header.elementSize] at hsize; omega)

theorem add_length_width (header : Header) :
    add header.length.toNat Header.width = .ok header.elementSize := by
  rw [← add_width_length, add, add, Nat.add_comm]

theorem runsAs_counted {α : Type} (header : Header) (value : α) (next : Cursor) :
    RunsAs (visited header) (counted header value next.toReader) (.ok (value, next)) :=
  RunsAs.step (add_width_length header) (.pure rfl)

/-! ### Loops over elements read from their headers on -/

/-- Within a value, an element ends in the range of the machine's numbers. -/
theorem reachFromHeader_eq {bytesRead : Nat} (header : Header) (h : bytesRead ≤ Header.maxLength) :
    reachFromHeader bytesRead header = .ok (bytesRead + header.elementSize) := by
  have hsize := elementSize_le header
  have hfit := two_elements_fit
  rw [Header.elementSize] at *
  rw [reachFromHeader, add_eq (by omega), ← Nat.add_assoc]
  exact add_eq (by omega)

/-- A header that is read is one that is seen ahead. -/
theorem runsAs_look (c : Cursor) (hfits : c.Fits) :
    RunsAs (fun header => (header, (c.advance Header.width).toReader))
      (Moving.readHeader.applyTo c.toReader) c.peekHeader := by
  have hread : c.readHeader =
      c.peekHeader >>= fun header => .ok (header, c.advance Header.width) := by
    unfold Cursor.peekHeader
    cases hheader : c.readHeader with
    | error e => rfl
    | ok read =>
        obtain ⟨header, next⟩ := read
        obtain ⟨-, rfl⟩ := Cursor.readHeader_eq_ok_iff.1 hheader
        rfl
  have hfollows := Moving.follows_readHeader hfits
  rw [hread] at hfollows
  exact hfollows.runsAs_answer

/-- The arithmetic of the types of application segments stays in range. -/
theorem segmentKind?_eq (type : UInt16) :
    segmentKind? type = .ok (SegmentKind.ofTlvType? type) := by
  unfold segmentKind?
  split
  · next happ =>
      have hkind : SegmentKind.ofTlvType? type = some (.app (type - 0x1000).toUInt8) := by
        have hne : ∀ other : UInt16, other < 0x1000 → type ≠ other := by
          intro other hother hsame
          exact absurd (hsame ▸ happ.1) (UInt16.not_le.2 hother)
        rw [SegmentKind.ofTlvType?, if_neg (hne _ (by decide)), if_neg (hne _ (by decide)),
          if_neg (hne _ (by decide)), if_neg (hne _ (by decide)), if_pos happ]
      rw [subWord_eq happ.1, hkind]
      rfl
  · rfl

/-- The machine's loop over segments follows the visits of them. -/
theorem nameLoop_follows : nameLoop.Follows Header.width Name.visitSegment where
  look := runsAs_look
  reach _ header h := reachFromHeader_eq header h
  visit segments header c hfits _ := by
    apply RunsAs.step (segmentKind?_eq header.type)
    unfold Name.visitSegment
    cases SegmentKind.ofTlvType? header.type with
    | none => exact .throw _
    | some kind =>
        apply (Moving.follows_read (hfits.advance Header.width) header.length.toNat).runsAs.bind
        intro read _
        exact runsAs_counted header _ read.2

/-- The machine's loop over parts follows the visits of them. -/
theorem partLoop_follows (tid : Tid) :
    (partLoop tid).Follows Header.width (ValidationAlgorithm.visitPart tid) where
  look := runsAs_look
  reach _ header h := reachFromHeader_eq header h
  visit parts header c hfits _ := by
    apply (Moving.follows_read (hfits.advance Header.width) header.length.toNat).runsAs.bind
    intro read _
    refine .ite (fun _ => ?_) fun _ => .ite (fun _ => ?_) fun _ => .ite (fun _ => ?_) fun _ => ?_
    · exact .ite (fun _ => .throw _) fun _ => runsAs_counted header _ read.2
    · exact .ite (fun _ => .throw _) fun _ => runsAs_counted header _ read.2
    · refine .ite (fun _ => .throw _) fun _ => .ite (fun _ => .throw _) fun _ => ?_
      exact runsAs_counted header _ read.2
    · exact .throw _

/-! ### Fields -/

variable {c : Cursor}

/-- An element is read if its value is, and counted from its header. -/
theorem runsAs_decoded {α : Type} (header : Header) (value : α) (next : Cursor) :
    RunsAs Decoded.withReader (counted header value next.toReader)
      (.ok { value, consumed := header.elementSize, next }) :=
  RunsAs.step (add_width_length header) (.pure rfl)

theorem length_le_maxLength (header : Header) : header.length.toNat ≤ Header.maxLength := by
  have hlt := header.length.toNat_lt
  unfold Header.maxLength
  omega

/-- The machine reads a name as it is read. -/
theorem runsAs_decodeName (hfits : c.Fits) :
    RunsAs Decoded.withReader (decodeName c.toReader) (Name.decode c) := by
  apply (Moving.follows_readHeader hfits).runsAs.bind
  intro read hread
  obtain ⟨header, next⟩ := read
  apply (Loop.runsAs_walk nameLoop_follows Name.visits_visitSegment (length_le_maxLength header)
    (hfits.of_readHeader hread) (Nat.zero_add _)).bind
  intro segments _
  exact runsAs_decoded header _ segments.2

/-- The machine reads an algorithm as it is read. -/
theorem runsAs_decodeAlgorithm (hfits : c.Fits) (tid : Tid) :
    RunsAs Decoded.withReader (decodeAlgorithm tid c.toReader)
      (ValidationAlgorithm.decode tid c) := by
  apply (Moving.follows_readHeader hfits).runsAs.bind
  intro read hread
  obtain ⟨header, next⟩ := read
  simp only [Cursor.withReader]
  cases Suite.ofTlvType? header.type with
  | none => exact .throw _
  | some suite =>
      apply (Loop.runsAs_walk (partLoop_follows tid) (ValidationAlgorithm.visits_visitPart tid)
        (length_le_maxLength header) (hfits.of_readHeader hread) (Nat.zero_add _)).bind
      intro parts _
      apply (RunsAs.lift _).bind
      intro alg _
      exact runsAs_decoded header _ parts.2

/-- The machine reads a hash value as it is read. -/
theorem runsAs_decodeHashValue (hfits : c.Fits) (tid : Tid) :
    RunsAs Decoded.withReader (decodeHashValue tid c.toReader)
      (CcnxPacket.decodeHashValue tid c) := by
  apply (Moving.follows_readHeader hfits).runsAs.bind
  intro read hread
  obtain ⟨header, next⟩ := read
  refine .ite (fun _ => .throw _) fun hlong => ?_
  apply (Moving.follows_readWord64 (hfits.of_readHeader hread)).runsAs.bind
  intro number hnumber
  apply RunsAs.step (sub_eq (Nat.not_lt.1 hlong))
  have hskip := Moving.follows_skip ((hfits.of_readHeader hread).of_readWord64 hnumber)
  apply (hskip _).runsAs_answer.bind
  intro behind _
  exact RunsAs.step (add_length_width header) (.pure rfl)

/-- The machine reads a payload as it is read. -/
theorem runsAs_decodePayload (hfits : c.Fits) :
    RunsAs Decoded.withReader (decodePayload c.toReader) (CcnxPacket.decodePayload c) := by
  apply (Moving.follows_readHeader hfits).runsAs.bind
  intro read hread
  obtain ⟨header, next⟩ := read
  apply (Moving.follows_read (hfits.of_readHeader hread) header.length.toNat).runsAs.bind
  intro value hvalue
  have hsize : add Header.width value.1.length = .ok header.elementSize := by
    rw [Cursor.length_of_read hvalue, add_width_length]
  exact RunsAs.step hsize (.pure rfl)

/-- The machine reads a payload type as it is read. -/
theorem runsAs_decodePayloadType (hfits : c.Fits) (tid : Tid) :
    RunsAs Decoded.withReader (decodePayloadType tid c.toReader)
      (CcnxPacket.decodePayloadType tid c) := by
  apply (Moving.follows_readHeader hfits).runsAs.bind
  intro read hread
  obtain ⟨header, next⟩ := read
  refine .ite (fun _ => .throw _) fun hone => ?_
  apply (Moving.follows_readOctet (hfits.of_readHeader hread)).runsAs.bind
  intro octet _
  obtain ⟨octet, behind⟩ := octet
  simp only [Cursor.withReader]
  cases PayloadType.ofOctet? octet with
  | none => exact .throw _
  | some value =>
      have hlength : header.length.toNat = 1 := by rw [not_ne_iff.1 hone]; rfl
      have hsize : add Header.width 1 = .ok header.elementSize := by
        rw [← hlength, add_width_length]
      exact RunsAs.step hsize (.pure rfl)

/-- The machine reads a timestamp as it is read. -/
theorem runsAs_decodeTimestamp (hfits : c.Fits) (tid : Tid) :
    RunsAs Decoded.withReader (decodeTimestamp tid c.toReader)
      (CcnxPacket.decodeTimestamp tid c) := by
  apply (Moving.follows_readHeader hfits).runsAs.bind
  intro read hread
  obtain ⟨header, next⟩ := read
  refine .ite (fun _ => .throw _) fun height => ?_
  apply (Moving.follows_readWord64 (hfits.of_readHeader hread)).runsAs.bind
  intro number _
  have hsize : add Header.width timestampWidth = .ok header.elementSize := by
    rw [← not_ne_iff.1 height, add_width_length]
  exact RunsAs.step hsize (.pure rfl)

/-- The machine reads a field as it is read, whatever its format. -/
theorem runsAs_decodeField (hfits : c.Fits) (format : Format) (tid : Tid) :
    RunsAs Decoded.withReader (decodeField format tid c.toReader) (format.decode tid c) := by
  cases format with
  | name => exact (runsAs_decodeName hfits).map fun _ => rfl
  | hashValue => exact (runsAs_decodeHashValue hfits tid).map fun _ => rfl
  | payload => exact (runsAs_decodePayload hfits).map fun _ => rfl
  | payloadType => exact (runsAs_decodePayloadType hfits tid).map fun _ => rfl
  | timestamp => exact (runsAs_decodeTimestamp hfits tid).map fun _ => rfl
  | validationAlgorithm => exact (runsAs_decodeAlgorithm hfits tid).map fun _ => rfl

end Machine

end CcnxPacket
