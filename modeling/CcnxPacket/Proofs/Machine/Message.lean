import CcnxPacket.Proofs.Machine.Field
import CcnxPacket.Proofs.Spelling.Message

/-!
# Reading messages on the machine

The loop over the fields of a message looks at a header without moving and leaves the element to the
format that is registered for it. It trusts that format with its counter: whichever format it is,
and whatever the message expects, the element that it consumes is the one that the header announces.
-/

namespace CcnxPacket

namespace Machine

/-- The fields of a message. -/
def fieldLoop (registry : Registry) (kind : MessageKind) : Loop (List TypedField) where
  look := Moving.peekHeader.applyTo
  reach bytesRead header := do
    let value ← add bytesRead header.length.toNat
    add value Header.width
  visit fields header offset r :=
    let tid := kind.tid.element header.type
    if header.type ∉ kind.fieldTypes then throw (.unknownField tid offset)
    else if (fields.lookup header.type).isSome then throw (.duplicateField tid offset)
    else do
      let format ← registry.lookup tid
      let field ← decodeField format tid r
      return field.map fun value => (header.type, value) :: fields

/-- Reads the fields of a message of the given kind. -/
def decodeFields (registry : Registry) (kind : MessageKind) (r : Reader) :
    Run (Read (List TypedField)) := do
  let start := r.position
  let (header, r) ← Moving.readHeader.applyTo r
  if header.type ≠ kind.tlvType then
    throw (.wrongMessageType kind.tlvType header.type start)
  let (_, r) ← (Moving.ensure header.length.toNat).applyTo r
  let (fields, r) ← (fieldLoop registry kind).run kind.tid header.length.toNat 0 [] r
  counted header fields r

/-- Reads a message of the given kind. -/
def decodeMessage (registry : Registry) (kind : MessageKind) (r : Reader) :
    Run (Read Message) := do
  let fields ← decodeFields registry kind r
  let message ← Message.ofFields kind fields.value
  return fields.map fun _ => message

/-- Fails when octets are still to be read. -/
def requireEnd (r : Reader) : Run Unit := do
  let remaining ← r.remaining
  if 0 < remaining then
    let count ← r.remaining
    throw (.trailingBytes r.position count)

/-- Reads octets that are exactly one message of the given kind. -/
def messageOfOctets (registry : Registry) (kind : MessageKind) (octets : Octets) :
    Run Message := do
  let message ← decodeMessage registry kind (.ofOctets octets)
  requireEnd message.next
  return message.value

variable {registry : Registry} {kind : MessageKind} {c : Cursor}

/-- The machine's loop over fields follows the visits of them. -/
theorem fieldLoop_follows (registry : Registry) (kind : MessageKind) :
    (fieldLoop registry kind).Follows 0 (visitField registry kind) where
  look c hfits := by
    rw [Cursor.advance_zero]
    exact (Moving.follows_peekHeader hfits).runsAs_answer
  reach bytesRead header h := by
    have hsize := elementSize_le header
    have hfit := two_elements_fit
    simp only [fieldLoop]
    rw [Header.elementSize] at *
    rw [add_eq (by omega), ← Nat.add_assoc, Nat.add_right_comm]
    exact add_eq (by omega)
  visit fields header c hfits hheader := by
    rw [Cursor.advance_zero]
    refine .ite (fun _ => .throw _) fun _ => .ite (fun _ => .throw _) fun _ => ?_
    apply (RunsAs.lift _).bind
    intro format _
    apply (runsAs_decodeField hfits format _).bind
    intro field hfield
    have hsize := Format.consumed_of_decode (Cursor.peekHeader_eq_ok_iff.2 hheader) hfield
    apply RunsAs.pure
    simp only [Read.map, Decoded.withReader, visited, hsize]

/-- The machine reads the fields of a message as they are read. -/
theorem runsAs_decodeFields (hfits : c.Fits) :
    RunsAs Decoded.withReader (decodeFields registry kind c.toReader)
      (CcnxPacket.decodeFields registry kind c) := by
  rw [decodeFields_eq]
  apply (Moving.follows_readHeader hfits).runsAs.bind
  intro read hread
  obtain ⟨header, next⟩ := read
  refine .ite (fun _ => .throw _) fun _ => ?_
  apply Moving.runsAs_ensure_bind
  · intro hroom
    rw [if_neg (by simp [hasAtLeast_iff.2 hroom])]
    apply (Loop.runsAs_walk (fieldLoop_follows registry kind)
      (Message.visits_visitField registry kind) (length_le_maxLength header)
      (hfits.of_readHeader hread) (Nat.zero_add _)).bind
    intro fields _
    exact runsAs_decoded header _ fields.2
  · intro hshort
    rw [if_pos (by simp [mt hasAtLeast_iff.1 (Nat.not_le.2 hshort)])]
    rfl

/-- The machine reads a message as it is read. -/
theorem runsAs_decodeMessage (hfits : c.Fits) :
    RunsAs Decoded.withReader (decodeMessage registry kind c.toReader)
      (Message.decode registry kind c) := by
  apply (runsAs_decodeFields hfits).bind
  intro fields _
  apply (RunsAs.lift _).bind
  intro message _
  exact .pure rfl

/-- A reader is at the end when the cursor is. -/
theorem runsAs_requireEnd {α β : Type} {φ : β → α} {next : Run α} {y : Except Error β}
    (hnext : RunsAs φ next y) :
    RunsAs φ (requireEnd c.toReader >>= fun _ => next)
      (if !c.atEnd then .error (.trailingBytes c.position c.remaining) else y) := by
  have hend : (requireEnd c.toReader).run =
      .ok (if 0 < c.ahead.length then .error (.trailingBytes c.position c.remaining)
        else .ok ()) := by
    unfold requireEnd
    rw [Reader.remaining_toReader]
    change (if 0 < c.ahead.length then throw (.trailingBytes c.position c.remaining)
      else pure () : Run Unit).run = _
    split <;> rfl
  unfold RunsAs
  cases hahead : c.ahead with
  | nil =>
      rw [hahead] at hend
      rw [RunsAs.run_bind_of_ok hend, if_neg (by simp [Cursor.atEnd_iff.2 hahead])]
      exact hnext
  | cons octet rest =>
      rw [hahead] at hend
      have hmore : c.atEnd = false := by simp [Cursor.atEnd, hahead]
      rw [RunsAs.run_bind_of_error hend, hmore]
      rfl

/-- The machine reads a message of octets that are in memory as it is read. -/
theorem runsAs_messageOfOctets {octets : Octets} (hfits : octets.length < UInt64.size) :
    RunsAs id (messageOfOctets registry kind octets) (Message.ofOctets registry kind octets) := by
  apply (runsAs_decodeMessage (Cursor.fits_ofOctets hfits)).bind
  intro message _
  exact runsAs_requireEnd (.pure rfl)

end Machine

end CcnxPacket
