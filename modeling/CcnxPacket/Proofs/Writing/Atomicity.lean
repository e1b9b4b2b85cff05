import CcnxPacket.Proofs.Writing.Message

/-!
# Messages are written whole or not at all

The size of a message is known before anything is written, and nothing inside a message can fail to
be written once its own header has been. So writing a message either appends exactly as many octets
as its size says, or leaves the output as it was.
-/

namespace CcnxPacket.Message

/-- The size of a message is that of its header and its parts. -/
theorem encodedSize_eq (registry : Registry) (message : Message) :
    message.encodedSize registry =
      (fieldParts registry message.tid message.fields).map fun parts =>
        Header.width + (rawConcat parts).length := by
  rw [encodedSize, fieldsSize_eq]
  cases fieldParts registry message.tid message.fields <;> rfl

/-- A message whose name can be read back is read from the octets that it is written as. -/
theorem ofOctets_of_element {registry : Registry} {message : Message} {e : Element}
    (hassigned : message.IsAssigned) (h : message.element registry = .ok e) :
    ofOctets registry message.kind e.octets = .ok message := by
  let next := (Cursor.ofOctets e.octets).advance e.size
  have hdecode : decode registry message.kind (.ofOctets e.octets) = .ok ⟨message, e.size, next⟩ :=
    (reads_decode registry message.kind).2
      ⟨e, List.prefix_rfl, ⟨rfl, isMessage_of_element hassigned h⟩, rfl, rfl⟩
  have hend : next.atEnd = true := by
    rw [Cursor.atEnd_iff]
    simp [next]
  rw [ofOctets, hdecode, Result.ok_bind]
  simp [hend]

/-- A message without a size is not written, and fails as its size does. One with a size is written
exactly when a header can hold the length of its value. Then the octets that its size counts are
added to the output; they are those of the message on its own, and they are read back as the message
if its name can be. In every other case the output stays as it was. -/
theorem encode_whole_or_not (registry : Registry) (message : Message) (out : Output) :
    (∀ e, message.encodedSize registry = .error e →
      (message.encode registry).run out = (.error e, out) ∧
      message.toOctets registry = .error e) ∧
    ∀ size, message.encodedSize registry = .ok size →
      Header.width ≤ size ∧
      (Header.maxLength < size - Header.width →
        (message.encode registry).run out =
            (.error (.messageTooLarge (size - Header.width) Header.maxLength), out) ∧
          message.toOctets registry =
            .error (.messageTooLarge (size - Header.width) Header.maxLength)) ∧
      (size - Header.width ≤ Header.maxLength →
        ∃ octets after, (message.encode registry).run out = (.ok size, after) ∧
          after.octets = out.octets ++ octets ∧ octets.length = size ∧
          message.toOctets registry = .ok octets ∧
          (message.IsAssigned → ofOctets registry message.kind octets = .ok message)) := by
  have hemits := emits_encode registry message
  have hoctets : message.toOctets registry = _ := hemits.toOctets_eq
  rw [encodedSize_eq, hoctets]
  -- A field without a value leaves the message without an element. Else the length decides.
  cases hparts : fieldParts registry message.tid message.fields with
  | error e =>
      have helement : message.element registry = .error e := by
        rw [element, hparts, Result.error_bind]
      rw [helement] at hemits ⊢
      constructor
      · intro e' he'
        cases he'
        exact ⟨hemits.run_of_error out, rfl⟩
      · intro size hsize
        cases hsize
  | ok parts =>
      have helement : message.element registry =
          Element.make message.tlvType (rawConcat parts) := by
        rw [element, hparts, Result.ok_bind]
      constructor
      · intro e he
        cases he
      · intro size hsize
        cases hsize
        rw [Nat.add_sub_cancel_left]
        refine ⟨Nat.le_add_right _ _, ?_, ?_⟩
        · intro hlong
          rw [Element.make_of_not_fits (Nat.not_le.2 hlong)] at helement
          rw [helement] at hemits ⊢
          exact ⟨hemits.run_of_error out, rfl⟩
        · intro hfits
          rw [Element.make_of_fits hfits] at helement
          rw [helement] at hemits ⊢
          exact ⟨_, _, hemits.run_of_ok out, Output.octets_append _ _, Element.length_octets _,
            rfl, fun hassigned => ofOctets_of_element hassigned helement⟩

/-- An Interest with a name of one segment. -/
def oneSegment : Message := .interest { name := ⟨[⟨.name, [7]⟩]⟩ }

theorem encode_oneSegment :
    (∃ after, (oneSegment.encode .shared).run (.ofOctets [9]) = (.ok 13, after) ∧
      after.octets = [9, 0, 1, 0, 9, 0, 0, 0, 5, 0, 1, 0, 1, 7]) ∧
    (oneSegment.encode (.empty .reject : Registry)).run (.ofOctets [9]) =
      (.error (.unknownType (Tid.interest.element TlvType.name)), .ofOctets [9]) := by
  constructor
  · have hsize : oneSegment.encodedSize .shared = .ok 13 := by decide +kernel
    obtain ⟨-, -, hwhole⟩ := (encode_whole_or_not .shared oneSegment (.ofOctets [9])).2 13 hsize
    obtain ⟨octets, after, hrun, hafter, -, hoctets, -⟩ := hwhole (by decide)
    have hwritten : oneSegment.toOctets .shared = .ok [0, 1, 0, 9, 0, 0, 0, 5, 0, 1, 0, 1, 7] := by
      decide +kernel
    rw [hwritten] at hoctets
    cases hoctets
    exact ⟨after, hrun, hafter⟩
  · have hsize : oneSegment.encodedSize (.empty .reject : Registry) =
        .error (.unknownType (Tid.interest.element TlvType.name)) := by
      decide +kernel
    exact ((encode_whole_or_not (.empty .reject) oneSegment (.ofOctets [9])).1 _ hsize).1

end CcnxPacket.Message
