import CcnxPacket.Proofs.Cursor

/-!
# One step of a cursor

A step succeeds exactly when the octets that it needs are there, ahead of the cursor or, to go back,
behind it. It then shows the octets at the place of the cursor and moves by its width, and its error
otherwise says where it was, what it needed and what there was.
-/

namespace CcnxPacket.Cursor

/-! ### Steps -/

namespace Step

/-- How many octets the step needs. -/
def needed : Step → Nat
  | octet => 1
  | word16 => 2
  | word64 => 8
  | octets n | skip n | rewind n => n
  | header | peek => Header.width

/-- How many octets there are for the step: to go back those behind the cursor, and otherwise those
ahead of it. -/
def available (s : Step) (c : Cursor) : Nat :=
  match s with
  | rewind _ => c.position
  | _ => c.remaining

/-- How many octets the step shows. -/
def shown : Step → Nat
  | skip _ | rewind _ => 0
  | s => s.needed

/-- How far the step moves. -/
def shift : Step → Int
  | rewind n => -n
  | peek => 0
  | s => s.needed

/-- The kind of reading that the step gives. -/
inductive Gives : Step → Reading → Prop where
  | octet (value : UInt8) : Gives octet (.octet value)
  | word16 (value : UInt16) : Gives word16 (.word16 value)
  | word64 (value : UInt64) : Gives word64 (.word64 value)
  | octets (n : Nat) (value : Octets) : Gives (octets n) (.octets value)
  | skip (n : Nat) : Gives (skip n) .nothing
  | rewind (n : Nat) : Gives (rewind n) .nothing
  | header (value : Header) : Gives header (.header value)
  | peek (value : Header) : Gives peek (.header value)

end Step

/-- The octets that were read, those of a number the most significant first. -/
def Reading.wire : Reading → Octets
  | octet value => [value]
  | word16 value => bigEndian 2 value.toNat
  | word64 value => bigEndian 8 value.toNat
  | octets value => value
  | header value => bigEndian 2 value.type.toNat ++ bigEndian 2 value.length.toNat
  | nothing => []

/-- The step reads the octets at the place of the cursor, and takes it to the next one. -/
structure Step.Leads (s : Step) (c : Cursor) (reading : Reading) (next : Cursor) : Prop where
  gives : s.Gives reading
  wire : reading.wire = (c.buffer.drop c.position).take s.shown
  buffer : next.buffer = c.buffer
  position : (next.position : Int) = c.position + s.shift

/-! ### What octets say -/

/-- What the step makes of the octets that it read. -/
def Step.reading (s : Step) (octets : Octets) : Reading :=
  match s with
  | octet => .octet (UInt8.ofNat (ofBigEndian octets))
  | word16 => .word16 (UInt16.ofNat (ofBigEndian octets))
  | word64 => .word64 (UInt64.ofNat (ofBigEndian octets))
  | .octets _ => .octets octets
  | skip _ | rewind _ => .nothing
  | header | peek => .header (Header.ofOctets octets)

/-- The reading of a step is one that the step gives. -/
theorem Step.gives_reading (s : Step) (octets : Octets) : s.Gives (s.reading octets) := by
  cases s <;> constructor

/-- A number that octets spell is spelled by them. -/
theorem bigEndian_of_spelled {width n : Nat} {octets : Octets} (h : octets.length = width)
    (hn : n = ofBigEndian octets % 256 ^ width) : bigEndian width n = octets := by
  subst h
  rw [hn, Nat.mod_eq_of_lt (ofBigEndian_lt octets), bigEndian_ofBigEndian]

/-- The octets of a reading are those that the step shows of what it read. -/
theorem Step.wire_reading {s : Step} {octets : Octets} (h : octets.length = s.needed) :
    (s.reading octets).wire = octets.take s.shown := by
  have hall : octets = octets.take s.needed := (List.take_of_length_le (Nat.le_of_eq h)).symm
  cases s with
  | skip n | rewind n => rfl
  | octet =>
      obtain ⟨octet, rfl⟩ := List.length_eq_one_iff.1 h
      simp [reading, Reading.wire, ofBigEndian, shown, needed]
  | word16 => exact (bigEndian_of_spelled h UInt16.toNat_ofNat').trans hall
  | word64 => exact (bigEndian_of_spelled h UInt64.toNat_ofNat').trans hall
  | octets n => exact hall
  | header | peek => exact (Header.octets_ofOctets h).trans hall

/-! ### One step -/

section
variable {c next : Cursor} {s : Step} {n : Nat}

/-- A cursor is told by its octets and its place in them. -/
theorem eq_of_place (hbuffer : c.buffer = next.buffer) (hposition : c.position = next.position) :
    c = next := by
  have hahead : c.ahead = next.ahead := by
    rw [← c.drop_buffer, ← next.drop_buffer, hbuffer, hposition]
  have hbehind : c.behind = next.behind := by
    rw [buffer_eq, buffer_eq, hahead] at hbuffer
    exact List.reverse_inj.1 (List.append_cancel_right hbuffer)
  cases c
  cases next
  rw [Cursor.mk.injEq]
  exact ⟨hbehind, hahead⟩

/-- A read that finds enough returns it and moves behind it. -/
theorem read_of_le (h : n ≤ c.remaining) : c.read n = .ok (c.ahead.take n, c.advance n) :=
  if_pos (hasAtLeast_iff.2 h)

/-- A read that finds too little says so. -/
theorem read_of_lt (h : c.remaining < n) : c.read n = .error (c.truncated n) :=
  if_neg (mt hasAtLeast_iff.1 (Nat.not_le.2 h))

theorem readWord16_of_le (h : 2 ≤ c.remaining) :
    c.readWord16 = .ok (UInt16.ofNat (ofBigEndian (c.ahead.take 2)), c.advance 2) := by
  rw [readWord16, readNumber, read_of_le h]
  rfl

/-- Going back no further than the start leaves the buffer as it is. -/
theorem rewind_of_le (h : n ≤ c.position) :
    ∃ next, c.rewind n = .ok next ∧ next.buffer = c.buffer ∧ next.position = c.position - n := by
  refine ⟨_, if_pos (hasAtLeast_iff.2 h), ?_, List.length_drop⟩
  rw [buffer_eq, buffer_eq, List.reverseAux_eq, ← List.append_assoc, ← List.reverse_append,
    List.take_append_drop]

/-- Going back beyond the start fails, and the message counts what is behind. -/
theorem rewind_of_lt (h : c.position < n) :
    c.rewind n = .error (.truncatedInput c.position n c.position) :=
  if_neg (mt hasAtLeast_iff.1 (Nat.not_le.2 h))

/-- Going back over what was just read leads to where the read began. -/
theorem rewind_advance (h : n ≤ c.remaining) : (c.advance n).rewind n = .ok c := by
  have hposition : (c.advance n).position = c.position + n := position_advance h
  obtain ⟨next, hnext, hbuffer, hback⟩ := rewind_of_le (c := c.advance n) (n := n) (by omega)
  have hsame : next = c := eq_of_place (hbuffer.trans (c.buffer_advance n)) (by omega)
  rw [hnext, hsame]

/-- Skipping is reading without a look at what was read. -/
theorem skip_eq_read (c : Cursor) (n : Nat) : c.skip n = (c.read n).map Prod.snd := by
  unfold skip read
  split <;> rfl

/-- Numbers are read as the octets that spell them. -/
theorem readNumber_bind_eq {α : Type} (width : Nat) (f : Nat → α) :
    (c.readNumber width >>= fun read => .ok (f read.1, read.2)) =
      c.read width >>= fun read => .ok (f (ofBigEndian read.1), read.2) := by
  unfold readNumber
  cases c.read width <;> rfl

/-- A header is two numbers, the second behind the first. -/
theorem readHeader_of_le (h : Header.width ≤ c.remaining) :
    c.readWord16 = .ok ((Header.ofOctets (c.ahead.take Header.width)).type, c.advance 2) ∧
      (c.advance 2).readWord16 =
        .ok ((Header.ofOctets (c.ahead.take Header.width)).length, c.advance Header.width) ∧
      c.readHeader = .ok (Header.ofOctets (c.ahead.take Header.width), c.advance Header.width) := by
  have htype : 2 ≤ c.remaining := Nat.le_trans (by decide) h
  have hlength : 2 ≤ (c.advance 2).remaining := by
    rw [remaining, ahead_advance, List.length_drop]
    exact Nat.le_sub_of_add_le h
  refine ⟨?_, ?_, ?_⟩
  · rw [readWord16_of_le htype]
    simp only [Header.ofOctets, Header.width, List.take_take]
    rfl
  · rw [readWord16_of_le hlength, advance_advance, ahead_advance]
    simp only [Header.ofOctets, Header.width, List.drop_take]
  · rw [readHeader, read_of_le h]
    rfl

/-- Every step but a rewind reads the octets that it needs, all at once. -/
theorem step_eq_read (h : ∀ n, s ≠ .rewind n) :
    c.step s = (c.read s.needed).map fun read =>
      (s.reading read.1, if s = .peek then c else read.2) := by
  cases s with
  | rewind n => exact absurd rfl (h n)
  | skip n =>
      simp only [step, skip_eq_read, Step.needed]
      cases c.read n <;> rfl
  | octet | word16 | word64 | octets n | header | peek =>
      simp only [step, readOctet, readWord16, readWord64, readNumber, readHeader, peekHeader,
        Step.needed]
      cases c.read _ <;> rfl

/-- A step that lacks octets says where it stands, what it needs and what there is. -/
theorem step_of_lacking (h : s.available c < s.needed) :
    c.step s = .error (.truncatedInput c.position s.needed (s.available c)) := by
  cases s with
  | rewind n =>
      rw [step, rewind_of_lt (n := n) h]
      rfl
  | octet | word16 | word64 | octets n | skip n | header | peek =>
      rw [step_eq_read (by simp), read_of_lt h]
      rfl

/-- Going back within the buffer leads where the step says. -/
theorem leads_rewind (h : n ≤ c.position) :
    ∃ next, c.step (.rewind n) = .ok (.nothing, next) ∧ (Step.rewind n).Leads c .nothing next := by
  obtain ⟨next, hnext, hbuffer, hposition⟩ := rewind_of_le h
  refine ⟨next, ?_, .rewind n, rfl, hbuffer, ?_⟩
  · rw [step, hnext]
    rfl
  · rw [hposition, Step.shift]
    omega

/-- What was read, with the cursor behind it or, for a look ahead, where it was. -/
theorem leads_read (hs : ∀ n, s ≠ .rewind n) (h : s.needed ≤ c.remaining) :
    s.Leads c (s.reading (c.ahead.take s.needed))
      (if s = .peek then c else c.advance s.needed) where
  gives := s.gives_reading _
  wire := by
    have hlength : (c.ahead.take s.needed).length = s.needed := by
      rw [List.length_take]
      exact Nat.min_eq_left h
    have hshown : s.shown ≤ s.needed := by
      cases s <;> simp [Step.shown]
    rw [Step.wire_reading hlength, c.drop_buffer, List.take_take, Nat.min_eq_left hshown]
  buffer := by
    split
    · rfl
    · exact c.buffer_advance s.needed
  position := by
    cases s with
    | rewind n => exact absurd rfl (hs n)
    | peek => exact (Int.add_zero _).symm
    | octet | word16 | word64 | octets n | skip n | header =>
      exact congrArg Nat.cast (position_advance h)

/-- A step that has its octets succeeds. -/
theorem step_of_available (h : s.needed ≤ s.available c) :
    ∃ reading next, c.step s = .ok (reading, next) ∧ s.Leads c reading next := by
  by_cases hs : ∀ n, s ≠ .rewind n
  · have hread : s.needed ≤ c.remaining := by
      cases s with
      | rewind n => exact absurd rfl (hs n)
      | _ => exact h
    refine ⟨_, _, ?_, leads_read hs hread⟩
    rw [step_eq_read hs, read_of_le hread]
    rfl
  · obtain ⟨n, rfl⟩ := not_forall_not.1 hs
    obtain ⟨next, hnext⟩ := leads_rewind h
    exact ⟨.nothing, next, hnext⟩

/-- A step that succeeds moves the cursor. -/
theorem advanceBy_of_ok {reading : Reading} (h : c.step s = .ok (reading, next)) :
    c.advanceBy s = (.ok reading, next) := by
  rw [advanceBy, h]

/-- A step that fails leaves the cursor where it was. -/
theorem advanceBy_of_error {e : Error} (h : c.step s = .error e) :
    c.advanceBy s = (.error e, c) := by
  rw [advanceBy, h]

/-- A look ahead reads what a header at the place would be read as, and stays there. -/
theorem advanceBy_peek (c : Cursor) : c.advanceBy .peek = ((c.advanceBy .header).1, c) := by
  unfold advanceBy step peekHeader
  cases c.readHeader <;> rfl

/-- No step changes the octets. -/
theorem buffer_advanceBy (c : Cursor) (s : Step) : (c.advanceBy s).2.buffer = c.buffer := by
  rcases Nat.lt_or_ge (s.available c) s.needed with h | h
  · rw [advanceBy_of_error (step_of_lacking h)]
  · obtain ⟨reading, next, hstep, hleads⟩ := step_of_available h
    rw [advanceBy_of_ok hstep]
    exact hleads.buffer

end

/-! ### Several steps -/

/-- The readings of several steps, and the cursor after them. -/
def advanceByAll (c : Cursor) : List Step → List (Except Error Reading) × Cursor
  | [] => ([], c)
  | s :: steps =>
    let (reading, c) := c.advanceBy s
    let (readings, c) := c.advanceByAll steps
    (reading :: readings, c)

end CcnxPacket.Cursor
