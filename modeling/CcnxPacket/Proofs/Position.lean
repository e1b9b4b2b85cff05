import CcnxPacket.Proofs.Fault.Place
import CcnxPacket.Proofs.Spelling.Message

/-!
# Reading at any position

An element is read alike wherever it stands: what the octets before it are does not matter at all,
and what comes behind it matters only to a failure. So a decoder at a position does what it does at
the front of the octets from there on, and where it fails, the offsets in its failure count from the
front of them (`Error.later`). When it succeeds, it has consumed the element that the header at the
position announces, and looked at nothing else.
-/

namespace CcnxPacket

/-- The failure as it is seen from `n` octets further in front: each offset in it grows by `n`. -/
def Error.later (n : Nat) : Error → Error
  | .truncatedInput offset needed available => .truncatedInput (n + offset) needed available
  | .lengthOverflow tid offset containerLength => .lengthOverflow tid (n + offset) containerLength
  | .unknownField tid offset => .unknownField tid (n + offset)
  | .duplicateField tid offset => .duplicateField tid (n + offset)
  | .wrongMessageType expected found offset => .wrongMessageType expected found (n + offset)
  | .trailingBytes offset count => .trailingBytes (n + offset) count
  | e => e

namespace Result

variable {α α' β β' : Type} {n : Nat}

/-- The result with its value changed, or with its failure seen from `n` octets further in front. -/
def later (n : Nat) (f : α → β) : Except Error α → Except Error β
  | .ok a => .ok (f a)
  | .error e => .error (e.later n)

theorem later_bind {x : Except Error α} {x' : Except Error α'} {f : α → α'} {g : β → β'}
    {rest : α → Except Error β} {rest' : α' → Except Error β'} (hx : x' = later n f x)
    (hrest : ∀ a, rest' (f a) = later n g (rest a)) : x' >>= rest' = later n g (x >>= rest) := by
  subst hx
  cases x with
  | error e => rfl
  | ok a => exact hrest a

theorem later_map {x : Except Error α} {x' : Except Error α'} {f : α → α'} {g : β → β'}
    {h : α → β} {h' : α' → β'} (hx : x' = later n f x) (hmap : ∀ a, h' (f a) = g (h a)) :
    x'.map h' = later n g (x.map h) := by
  subst hx
  cases x with
  | error e => rfl
  | ok a => exact congrArg Except.ok (hmap a)

theorem later_ite {p : Prop} [Decidable p] {x y : Except Error α} {x' y' : Except Error α'}
    {f : α → α'} (hx : p → x' = later n f x) (hy : ¬ p → y' = later n f y) :
    (if p then x' else y') = later n f (if p then x else y) := by
  by_cases hp : p
  · rw [if_pos hp, if_pos hp]
    exact hx hp
  · rw [if_neg hp, if_neg hp]
    exact hy hp

end Result

open Result

namespace Cursor

variable (c : Cursor) (passed : Octets)

/-- The cursor in octets with more in front, which are passed as well. They are given the nearest
first. -/
def after : Cursor := ⟨c.behind ++ passed, c.ahead⟩

@[simp] theorem ahead_after : (c.after passed).ahead = c.ahead := rfl

@[simp] theorem position_after : (c.after passed).position = passed.length + c.position := by
  simp only [after, position, List.length_append]
  omega

/-- Advancing does not depend on what was passed. -/
theorem advance_after (n : Nat) : (c.after passed).advance n = (c.advance n).after passed := by
  simp [advance, after, List.reverseAux_eq]

/-- A report of missing octets is moved by what was passed. -/
theorem truncated_after (n : Nat) :
    (c.after passed).truncated n = (c.truncated n).later passed.length := by
  simp only [truncated, Error.later, position_after]
  rfl

/-- What was read, with the cursor behind it moved. -/
def andAfter {α : Type} (read : α × Cursor) : α × Cursor := (read.1, read.2.after passed)

theorem read_after (n : Nat) :
    (c.after passed).read n = later passed.length (andAfter passed) (c.read n) := by
  unfold read
  rw [ahead_after, advance_after, truncated_after]
  split <;> rfl

theorem skip_after (n : Nat) :
    (c.after passed).skip n = later passed.length (·.after passed) (c.skip n) := by
  unfold skip
  rw [ahead_after, advance_after, truncated_after]
  split <;> rfl

theorem readNumber_after (width : Nat) :
    (c.after passed).readNumber width =
      later passed.length (andAfter passed) (c.readNumber width) :=
  later_bind (read_after c passed width) fun _ => rfl

theorem readOctet_after :
    (c.after passed).readOctet = later passed.length (andAfter passed) c.readOctet :=
  later_bind (readNumber_after c passed 1) fun _ => rfl

theorem readWord64_after :
    (c.after passed).readWord64 = later passed.length (andAfter passed) c.readWord64 :=
  later_bind (readNumber_after c passed 8) fun _ => rfl

theorem readHeader_after :
    (c.after passed).readHeader = later passed.length (andAfter passed) c.readHeader :=
  later_bind (read_after c passed Header.width) fun _ => rfl

theorem peekHeader_after : (c.after passed).peekHeader = later passed.length id c.peekHeader :=
  later_bind (readHeader_after c passed) fun _ => rfl

theorem readValue_after (header : Header) :
    (c.after passed).readValue header =
      later passed.length (andAfter passed) (c.readValue header) := by
  unfold readValue
  rw [advance_after]
  exact read_after _ passed _

end Cursor

/-- What was decoded, with the cursor behind it moved. -/
def Decoded.after {α : Type} (passed : Octets) (decoded : Decoded α) : Decoded α :=
  { decoded with next := decoded.next.after passed }

variable {passed : Octets}

/-- A walk does not mind where it stands if its visitor does not. -/
theorem walk_after {σ : Type} {container : Tid} {length : Nat}
    {visit : σ → Header → Cursor → Except Error (σ × Cursor)}
    (hvisit : ∀ state header c, visit state header (c.after passed) =
      later passed.length (Cursor.andAfter passed) (visit state header c))
    (left : Nat) (state : σ) (c : Cursor) :
    walk container length visit left state (c.after passed) =
      later passed.length (Cursor.andAfter passed) (walk container length visit left state c) := by
  induction left using Nat.strongRecOn generalizing state c with
  | ind left ih =>
      rw [walk, walk]
      split
      · rfl
      · next hmore =>
          rw [Cursor.peekHeader_after]
          cases c.peekHeader with
          | error e => rfl
          | ok header =>
              simp only [later, id_eq]
              split
              · rw [Cursor.position_after]
                rfl
              · rw [hvisit]
                cases visit state header c with
                | error e => rfl
                | ok read =>
                    have hpos := header.elementSize_pos
                    exact ih (left - header.elementSize) (by omega) read.1 read.2

/-- A walk over elements is moved by what was passed when all its visits are. -/
theorem elements_after {σ : Type} {container : Tid} {length : Nat}
    {visit : σ → Header → Cursor → Except Error (σ × Cursor)} {state : σ} {c : Cursor}
    (hvisit : ∀ state header c, visit state header (c.after passed) =
      later passed.length (Cursor.andAfter passed) (visit state header c)) :
    elements container length visit state (c.after passed) =
      later passed.length (Cursor.andAfter passed) (elements container length visit state c) :=
  walk_after hvisit length state c

/-! ### Fields -/

/-- Reading a name is moved by what was passed. -/
theorem Name.decode_after (c : Cursor) :
    decode (c.after passed) = later passed.length (Decoded.after passed) (decode c) := by
  have hvisit : ∀ segments header (c : Cursor), visitSegment segments header (c.after passed) =
      later passed.length (Cursor.andAfter passed) (visitSegment segments header c) := by
    intro segments header c
    unfold visitSegment
    split
    · rw [Cursor.position_after]
      rfl
    · exact later_bind (Cursor.readValue_after c passed header) fun _ => rfl
  unfold decode
  apply later_bind (Cursor.readHeader_after c passed)
  intro read
  exact later_bind (elements_after hvisit) fun _ => rfl

theorem decodeHashValue_after (tid : Tid) (c : Cursor) :
    decodeHashValue tid (c.after passed) =
      later passed.length (Decoded.after passed) (decodeHashValue tid c) := by
  unfold decodeHashValue
  apply later_bind (Cursor.readHeader_after c passed)
  intro read
  refine later_ite (fun _ => rfl) fun _ => ?_
  apply later_bind (Cursor.readWord64_after read.2 passed)
  intro number
  exact later_bind (Cursor.skip_after _ passed _) fun _ => rfl

theorem decodePayload_after (c : Cursor) :
    decodePayload (c.after passed) =
      later passed.length (Decoded.after passed) (decodePayload c) := by
  unfold decodePayload
  apply later_bind (Cursor.readHeader_after c passed)
  intro read
  exact later_bind (Cursor.read_after read.2 passed _) fun _ => rfl

theorem decodePayloadType_after (tid : Tid) (c : Cursor) :
    decodePayloadType tid (c.after passed) =
      later passed.length (Decoded.after passed) (decodePayloadType tid c) := by
  unfold decodePayloadType
  apply later_bind (Cursor.readHeader_after c passed)
  intro read
  refine later_ite (fun _ => rfl) fun _ => ?_
  apply later_bind (Cursor.readOctet_after read.2 passed)
  intro octet
  simp only [Cursor.andAfter]
  split <;> rfl

theorem decodeTimestamp_after (tid : Tid) (c : Cursor) :
    decodeTimestamp tid (c.after passed) =
      later passed.length (Decoded.after passed) (decodeTimestamp tid c) := by
  unfold decodeTimestamp
  apply later_bind (Cursor.readHeader_after c passed)
  intro read
  refine later_ite (fun _ => rfl) fun _ => ?_
  exact later_bind (Cursor.readWord64_after read.2 passed) fun _ => rfl

namespace ValidationAlgorithm

theorem visitPart_after (tid : Tid) (parts : Parts) (header : Header) (c : Cursor) :
    visitPart tid parts header (c.after passed) =
      later passed.length (Cursor.andAfter passed) (visitPart tid parts header c) := by
  unfold visitPart
  apply later_bind (Cursor.readValue_after c passed header)
  intro read
  simp only [Cursor.andAfter, Cursor.position_after]
  refine later_ite (fun _ => ?_) fun _ => later_ite (fun _ => ?_) fun _ =>
    later_ite (fun _ => ?_) fun _ => rfl
  · exact later_ite (fun _ => rfl) fun _ => rfl
  · exact later_ite (fun _ => rfl) fun _ => rfl
  · exact later_ite (fun _ => rfl) fun _ => later_ite (fun _ => rfl) fun _ => rfl

/-- Reading an algorithm is moved by what was passed. -/
theorem decode_after (tid : Tid) (c : Cursor) :
    decode tid (c.after passed) = later passed.length (Decoded.after passed) (decode tid c) := by
  unfold decode
  apply later_bind (Cursor.readHeader_after c passed)
  intro read
  simp only [Cursor.andAfter]
  split
  · rfl
  · next suite _ =>
      apply later_bind (elements_after (visitPart_after tid))
      intro parts
      have hmake : make suite parts.1.keyId parts.1.publicKey parts.1.signingTime =
          later passed.length id
            (make suite parts.1.keyId parts.1.publicKey parts.1.signingTime) := by
        unfold make
        split <;> rfl
      exact later_bind hmake fun _ => rfl

end ValidationAlgorithm

/-- Reading a field is moved by what was passed, whatever its format. -/
theorem Format.decode_after (format : Format) (tid : Tid) (c : Cursor) :
    format.decode tid (c.after passed) =
      later passed.length (Decoded.after passed) (format.decode tid c) := by
  cases format with
  | name => exact later_map (Name.decode_after c) fun _ => rfl
  | hashValue => exact later_map (decodeHashValue_after tid c) fun _ => rfl
  | payload => exact later_map (decodePayload_after c) fun _ => rfl
  | payloadType => exact later_map (decodePayloadType_after tid c) fun _ => rfl
  | timestamp => exact later_map (decodeTimestamp_after tid c) fun _ => rfl
  | validationAlgorithm => exact later_map (ValidationAlgorithm.decode_after tid c) fun _ => rfl

/-! ### Messages -/

/-- A visit of a field is moved by what was passed. -/
theorem visitField_after (registry : Registry) (kind : MessageKind) (fields : List TypedField)
    (header : Header) (c : Cursor) :
    visitField registry kind fields header (c.after passed) =
      later passed.length (Cursor.andAfter passed) (visitField registry kind fields header c) := by
  unfold visitField
  simp only [Cursor.position_after]
  split
  · rfl
  split
  · rfl
  · have hlookup : registry.lookup (kind.tid.element header.type) =
        later passed.length id (registry.lookup (kind.tid.element header.type)) := by
      unfold Registry.lookup
      split <;> rfl
    apply later_bind hlookup
    intro format
    exact later_bind (format.decode_after _ c) fun _ => rfl

theorem decodeFields_after (registry : Registry) (kind : MessageKind) (c : Cursor) :
    decodeFields registry kind (c.after passed) =
      later passed.length (Decoded.after passed) (decodeFields registry kind c) := by
  rw [decodeFields_eq, decodeFields_eq]
  apply later_bind (Cursor.readHeader_after c passed)
  intro read
  simp only [Cursor.andAfter, Cursor.position_after, Cursor.ahead_after, Cursor.truncated_after]
  refine later_ite (fun _ => rfl) fun _ => later_ite (fun _ => rfl) fun _ => ?_
  exact later_bind (elements_after (visitField_after registry kind)) fun _ => rfl

/-- What is wrong with the fields themselves lies at no offset. -/
theorem Message.ofFields_eq_later (kind : MessageKind) (fields : List TypedField) (n : Nat) :
    ofFields kind fields = later n id (ofFields kind fields) := by
  have htake : ∀ {α : Type} (kind : MessageKind) (type : UInt16) (select : Field → Option α),
      takeField kind fields type select = later n id (takeField kind fields type select) := by
    intro α kind type select
    unfold takeField
    split
    · rfl
    · split <;> rfl
  cases kind with
  | interest =>
      refine later_map (f := id) ?_ fun _ => rfl
      apply later_bind (htake _ _ _)
      intro name
      cases name with
      | none => rfl
      | some name =>
          apply later_bind (htake _ _ _)
          intro payload
          apply later_bind (htake _ _ _)
          intro keyIdRestriction
          exact later_bind (htake _ _ _) fun _ => rfl
  | contentObject =>
      refine later_map (f := id) ?_ fun _ => rfl
      apply later_bind (htake _ _ _)
      intro name
      apply later_bind (htake _ _ _)
      intro payloadType
      apply later_bind (htake _ _ _)
      intro expiry
      exact later_bind (htake _ _ _) fun _ => rfl

/-- Reading a message is moved by what was passed. -/
theorem Message.decode_after (registry : Registry) (kind : MessageKind) (c : Cursor) :
    decode registry kind (c.after passed) =
      later passed.length (Decoded.after passed) (decode registry kind c) := by
  unfold decode
  apply later_bind (decodeFields_after registry kind c)
  intro fields
  exact later_bind (ofFields_eq_later kind fields.value passed.length) fun _ => rfl

/-! ### Reading in place -/

/-- The decoder reads the element at any offset of any octets, and only that element. -/
structure ReadsInPlace {α : Type} (decode : Cursor → Except Error (Decoded α)) : Prop where
  /-- It consumes what the header at the offset announces, and stops behind that. -/
  consumption : ∀ {data k c read}, Cursor.IsAt c data k → decode c = .ok read →
    read.consumed = Header.width + Header.declaredLength (data.drop k) ∧
      read.next.IsAt data (k + read.consumed)
  /-- Wherever the same octets stand, it reads the same value. -/
  locality : ∀ {data k c read}, Cursor.IsAt c data k → decode c = .ok read →
    ∀ {data' k' c'}, Cursor.IsAt c' data' k' →
      (data'.drop k').take read.consumed = (data.drop k).take read.consumed →
        ∃ next, decode c' = .ok { read with next } ∧ next.IsAt data' (k' + read.consumed)
  /-- What is in front of the offset changes nothing but the offsets in failures. -/
  translation : ∀ {data k c}, Cursor.IsAt c data k →
    decode c = later k (fun read => { read with next := c.advance read.consumed })
      (decode (.ofOctets (data.drop k)))

/-- An element starts octets if and only if it starts as many of them as it has. -/
theorem Element.starts_iff_starts_take {e : Element} {octets : Octets} :
    e.octets <+: octets ↔ e.octets <+: octets.take e.size := by
  constructor
  · intro h
    rw [List.prefix_take_iff]
    exact ⟨h, Nat.le_of_eq e.length_octets⟩
  · exact fun h => h.trans (List.take_prefix _ _)

section
variable {α : Type} {decode : Cursor → Except Error (Decoded α)} {spells : Element → α → Prop}
variable {data : Octets} {k : Nat} {c : Cursor}

/-- What is read is one element, as its header declares. -/
theorem Reads.consumption (h : Reads decode spells) {read : Decoded α} (hc : c.IsAt data k)
    (hread : decode c = .ok read) :
    read.consumed = Header.width + Header.declaredLength (data.drop k) ∧
      read.next.IsAt data (k + read.consumed) := by
  obtain ⟨e, he, -, hconsumed, hnext⟩ := h.1 hread
  have hheader : e.header.octets <+: data.drop k := hc.ahead ▸ Element.header_starts he
  rw [hconsumed, hnext, Header.declaredLength_of_starts hheader, Element.header_length]
  exact ⟨rfl, hc.advance_element he⟩

/-- What is read depends on the octets of the element only. -/
theorem Reads.locality (h : Reads decode spells) {read : Decoded α} (hc : c.IsAt data k)
    (hread : decode c = .ok read) {data' : Octets} {k' : Nat} {c' : Cursor}
    (hc' : c'.IsAt data' k')
    (hsame : (data'.drop k').take read.consumed = (data.drop k).take read.consumed) :
    ∃ next, decode c' = .ok { read with next } ∧ next.IsAt data' (k' + read.consumed) := by
  obtain ⟨e, he, hspells, hconsumed, -⟩ := h.1 hread
  have he' : e.octets <+: c'.ahead := by
    rw [Element.starts_iff_starts_take, hc'.ahead, ← hconsumed, hsame, hconsumed,
      ← Element.starts_iff_starts_take, ← hc.ahead]
    exact he
  refine ⟨c'.advance e.size, h.2 ⟨e, he', hspells, hconsumed, rfl⟩, ?_⟩
  rw [hconsumed]
  exact hc'.advance_element he'

/-- What is read somewhere is what is read of the octets from there on, with errors moved. -/
theorem Reads.translation (h : Reads decode spells)
    (hafter : ∀ passed c, decode (c.after passed) =
      later passed.length (Decoded.after passed) (decode c)) (hc : c.IsAt data k) :
    decode c = later k (fun read => { read with next := c.advance read.consumed })
      (decode (.ofOctets (data.drop k))) := by
  have hmoved : c = (Cursor.ofOctets (data.drop k)).after c.behind := by
    rw [← hc.ahead]
    rfl
  have hlength : c.behind.length = k := hc.position
  rw [hmoved, hafter c.behind, ← hmoved, hlength]
  cases hread : decode (.ofOctets (data.drop k)) with
  | error e => rfl
  | ok read =>
      obtain ⟨e, -, -, hconsumed, hnext⟩ := h.1 hread
      have hadvance : read.next.after c.behind = c.advance read.consumed := by
        rw [hnext, hconsumed, ← Cursor.advance_after, ← hmoved]
      simp only [later, Decoded.after, hadvance]

/-- Whatever reads by spelling and is moved by what was passed reads in place. -/
theorem Reads.inPlace (h : Reads decode spells)
    (hafter : ∀ passed c, decode (c.after passed) =
      later passed.length (Decoded.after passed) (decode c)) : ReadsInPlace decode where
  consumption hc hread := h.consumption hc hread
  locality hc hread _ _ _ hc' hsame := h.locality hc hread hc' hsame
  translation hc := h.translation hafter hc

end

/-- Fields of each format and messages of both kinds are read in place. -/
theorem decoders_read_in_place :
    (∀ (format : Format) (tid : Tid), ReadsInPlace (format.decode tid)) ∧
      ∀ (registry : Registry) (kind : MessageKind), ReadsInPlace (Message.decode registry kind) :=
  ⟨fun format tid => (format.reads_decode tid).inPlace fun _ => format.decode_after tid,
    fun registry kind =>
      (Message.reads_decode registry kind).inPlace fun _ => Message.decode_after registry kind⟩

/-- A payload of two octets, with an octet in front of it and another behind it. -/
def surroundedPayload : Octets := [255, 0, 1, 0, 2, 7, 8, 255]

theorem decode_surroundedPayload :
    ∃ next, Format.payload.decode Tid.interest ((Cursor.ofOctets surroundedPayload).advance 1) =
        .ok { value := .payload [7, 8], consumed := 6, next } ∧ next.IsAt surroundedPayload 7 := by
  have hinPlace := decoders_read_in_place.1 .payload Tid.interest
  have hfront : Format.payload.decode Tid.interest (.ofOctets [0, 1, 0, 2, 7, 8]) =
      .ok { value := .payload [7, 8], consumed := 6, next := ⟨[8, 7, 2, 0, 1, 0], []⟩ } := rfl
  exact hinPlace.locality (Cursor.isAt_ofOctets _) hfront ⟨by decide, rfl⟩ rfl

end CcnxPacket
