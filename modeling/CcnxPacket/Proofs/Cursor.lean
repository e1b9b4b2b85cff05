import CcnxPacket.Proofs.Element
import CcnxPacket.Proofs.Result
import CcnxPacket.Tlv.Container

/-!
# Reads of a cursor

What each read of a cursor returns when it succeeds, in terms of the octets ahead. A header is read
exactly when its octets are ahead, and a header with its value exactly when an element is ahead.
-/

namespace CcnxPacket.Cursor

variable {c next : Cursor}

/-! ### Moving forward -/

@[simp] theorem ahead_advance (c : Cursor) (n : Nat) : (c.advance n).ahead = c.ahead.drop n := rfl

@[simp] theorem advance_zero (c : Cursor) : c.advance 0 = c := by
  simp [advance]

/-- Advancing twice is advancing by the sum. -/
theorem advance_advance (c : Cursor) (m n : Nat) : (c.advance m).advance n = c.advance (m + n) := by
  simp only [advance, List.drop_drop, List.reverseAux_eq, List.take_add, List.reverse_append,
    List.append_assoc]

/-- Within the input, the position advances by what the cursor does. -/
theorem position_advance {n : Nat} (h : n ≤ c.ahead.length) :
    (c.advance n).position = c.position + n := by
  simp only [advance, position, List.reverseAux_eq, List.length_append, List.length_reverse,
    List.length_take, Nat.min_eq_left h]
  omega

theorem buffer_eq (c : Cursor) : c.buffer = c.behind.reverse ++ c.ahead :=
  List.reverseAux_eq

/-- The position and what is ahead make up the length of the buffer. -/
theorem length_buffer (c : Cursor) : c.buffer.length = c.position + c.ahead.length := by
  rw [buffer_eq, List.length_append, List.length_reverse, position]

/-- What is ahead is the buffer from the position on. -/
theorem drop_buffer (c : Cursor) : c.buffer.drop c.position = c.ahead := by
  rw [buffer_eq, List.drop_left']
  exact List.length_reverse

@[simp] theorem buffer_advance (c : Cursor) (n : Nat) : (c.advance n).buffer = c.buffer := by
  rw [buffer_eq, buffer_eq, advance, List.reverseAux_eq, List.reverse_append,
    List.reverse_reverse, List.append_assoc, List.take_append_drop]

@[simp] theorem ahead_ofOctets (octets : Octets) : (ofOctets octets).ahead = octets := rfl

@[simp] theorem position_ofOctets (octets : Octets) : (ofOctets octets).position = 0 := rfl

/-- A cursor is at the end when nothing is ahead. -/
theorem atEnd_iff : c.atEnd = true ↔ c.ahead = [] := List.isEmpty_iff

/-! ### Reads of octets and numbers -/

/-- A read succeeds when enough is ahead, returns the octets there and moves behind them. -/
theorem read_eq_ok_iff {n : Nat} {octets : Octets} :
    c.read n = .ok (octets, next) ↔
      n ≤ c.ahead.length ∧ octets = c.ahead.take n ∧ next = c.advance n := by
  unfold read
  split
  · next h => simp [hasAtLeast_iff.1 h, eq_comm]
  · next h => simp [mt hasAtLeast_iff.2 h]

/-- The octets that a read returns are as many as it was asked for. -/
theorem length_of_read {n : Nat} {octets : Octets} (h : c.read n = .ok (octets, next)) :
    octets.length = n := by
  obtain ⟨hlength, rfl, -⟩ := read_eq_ok_iff.1 h
  rw [List.length_take, Nat.min_eq_left hlength]

/-- Skipping succeeds when enough is ahead and moves behind it. -/
theorem skip_eq_ok_iff {n : Nat} :
    c.skip n = .ok next ↔ n ≤ c.ahead.length ∧ next = c.advance n := by
  unfold skip
  split
  · next h => simp [hasAtLeast_iff.1 h, eq_comm]
  · next h => simp [mt hasAtLeast_iff.2 h]

/-- A number is read of the octets ahead, most significant octet first. -/
theorem readNumber_eq_ok_iff {width n : Nat} :
    c.readNumber width = .ok (n, next) ↔
      width ≤ c.ahead.length ∧ n = ofBigEndian (c.ahead.take width) ∧ next = c.advance width := by
  simp only [readNumber, Result.bind_eq_ok_iff, Prod.exists, read_eq_ok_iff, Result.pure_eq_ok]
  constructor
  · intro h
    rcases h with ⟨octets, after, ⟨hlength, rfl, rfl⟩, h⟩
    cases h
    exact ⟨hlength, rfl, rfl⟩
  · intro h
    rcases h with ⟨hlength, rfl, rfl⟩
    exact ⟨_, _, ⟨hlength, rfl, rfl⟩, rfl⟩

theorem readWord64_eq_ok_iff {n : UInt64} :
    c.readWord64 = .ok (n, next) ↔
      8 ≤ c.ahead.length ∧ n = UInt64.ofNat (ofBigEndian (c.ahead.take 8)) ∧
        next = c.advance 8 := by
  simp only [readWord64, Result.bind_eq_ok_iff, Prod.exists, readNumber_eq_ok_iff,
    Result.pure_eq_ok]
  constructor
  · intro h
    rcases h with ⟨number, after, ⟨hlength, rfl, rfl⟩, h⟩
    cases h
    exact ⟨hlength, rfl, rfl⟩
  · intro h
    rcases h with ⟨hlength, rfl, rfl⟩
    exact ⟨_, _, ⟨hlength, rfl, rfl⟩, rfl⟩

/-- A single octet is read when there is one ahead. -/
theorem readOctet_eq_ok_iff {octet : UInt8} :
    c.readOctet = .ok (octet, next) ↔
      ∃ rest, c.ahead = octet :: rest ∧ next = c.advance 1 := by
  simp only [readOctet, Result.bind_eq_ok_iff, Prod.exists, readNumber_eq_ok_iff,
    Result.pure_eq_ok]
  cases hahead : c.ahead with
  | nil => simp
  | cons first rest =>
      have hfirst : UInt8.ofNat (ofBigEndian [first]) = first := by
        simp [ofBigEndian]
      constructor
      · intro h
        rcases h with ⟨number, after, ⟨-, rfl, rfl⟩, h⟩
        cases h
        exact ⟨rest, by simp [hfirst], rfl⟩
      · intro h
        rcases h with ⟨rest', h, rfl⟩
        cases h
        exact ⟨_, _, ⟨by simp, rfl, rfl⟩, by simp [hfirst]⟩

/-! ### Reads of headers and elements -/

/-- A header is read when its octets are ahead. -/
theorem readHeader_eq_ok_iff {header : Header} :
    c.readHeader = .ok (header, next) ↔
      header.octets <+: c.ahead ∧ next = c.advance Header.width := by
  simp only [readHeader, Result.bind_eq_ok_iff, Prod.exists, read_eq_ok_iff, Result.pure_eq_ok]
  constructor
  · intro h
    rcases h with ⟨octets, after, ⟨hlength, rfl, rfl⟩, h⟩
    cases h
    have htake : (c.ahead.take Header.width).length = Header.width := by
      simp [hlength]
    refine ⟨?_, rfl⟩
    rw [Header.octets_ofOctets htake]
    exact List.take_prefix _ _
  · intro h
    rcases h with ⟨hstarts, rfl⟩
    have hlength := hstarts.length_le
    have htake : header.octets = c.ahead.take Header.width := by
      rw [List.prefix_iff_eq_take.1 hstarts, Header.length_octets]
    rw [Header.length_octets] at hlength
    exact ⟨_, _, ⟨hlength, rfl, rfl⟩, by rw [← htake, Header.ofOctets_octets]⟩

/-- A header is seen ahead without moving to it when its octets are there. -/
theorem peekHeader_eq_ok_iff {header : Header} :
    c.peekHeader = .ok header ↔ header.octets <+: c.ahead := by
  simp only [peekHeader, Result.bind_eq_ok_iff, Prod.exists, readHeader_eq_ok_iff,
    Result.pure_eq_ok]
  constructor
  · intro h
    rcases h with ⟨_, _, ⟨hstarts, rfl⟩, h⟩
    cases h
    exact hstarts
  · intro hstarts
    exact ⟨_, _, ⟨hstarts, rfl⟩, rfl⟩

/-- Behind the header of the element ahead come its value and what follows the element. -/
theorem ahead_of_starts {e : Element} (h : e.octets <+: c.ahead) :
    (c.advance Header.width).ahead = e.value ++ (c.advance e.size).ahead := by
  obtain ⟨rest, hrest⟩ := h
  rw [ahead_advance, ahead_advance, ← hrest, ← Element.length_octets, List.drop_left,
    Element.octets, List.append_assoc]
  exact List.drop_left' (Header.length_octets _)

/-- Octets behind an element ahead are those ahead once the element is passed. -/
theorem append_starts_iff {e : Element} {more : Octets} :
    e.octets ++ more <+: c.ahead ↔
      e.octets <+: c.ahead ∧ more <+: (c.advance e.size).ahead := by
  constructor
  · intro h
    obtain ⟨rest, hrest⟩ := h
    rw [ahead_advance, ← hrest, List.append_assoc, ← Element.length_octets, List.drop_left]
    exact ⟨List.prefix_append _ _, List.prefix_append _ _⟩
  · intro h
    obtain ⟨⟨rest, hrest⟩, hmore⟩ := h
    rw [ahead_advance, ← hrest, ← Element.length_octets, List.drop_left] at hmore
    rw [← hrest]
    exact (List.prefix_append_right_inj _).2 hmore

/-- Passing an element moves the position by its size. -/
theorem position_advance_size {e : Element} (h : e.octets <+: c.ahead) :
    (c.advance e.size).position = c.position + e.size := by
  apply position_advance
  rw [← Element.length_octets]
  exact h.length_le

/-- What is behind the header of an element has room for its value. -/
theorem length_value_le {e : Element} (h : e.octets <+: c.ahead) :
    e.value.length ≤ (c.advance Header.width).ahead.length := by
  rw [ahead_of_starts h]
  simp

/-- The octets that a header announces are ahead exactly when an element with the header is. -/
theorem value_ahead_iff {header : Header} (h : header.octets <+: c.ahead) :
    header.length.toNat ≤ (c.advance Header.width).ahead.length ↔
      ∃ e : Element, e.header = header ∧ e.octets <+: c.ahead := by
  constructor
  · intro hlength
    apply Element.exists_of_header h
    have := h.length_le
    simp only [Header.length_octets, Header.elementSize, ahead_advance, List.length_drop] at *
    omega
  · intro hahead
    rcases hahead with ⟨e, rfl, he⟩
    rw [Element.header_length]
    exact length_value_le he

/-- A value is read exactly when the element with it is ahead. -/
theorem readValue_eq_ok_iff {header : Header} {value : Octets} (h : header.octets <+: c.ahead) :
    c.readValue header = .ok (value, next) ↔
      ∃ e : Element, e.header = header ∧ e.octets <+: c.ahead ∧
        value = e.value ∧ next = c.advance e.size := by
  rw [readValue, read_eq_ok_iff, value_ahead_iff h, advance_advance]
  constructor
  · intro hread
    rcases hread with ⟨⟨e, rfl, he⟩, rfl, rfl⟩
    refine ⟨e, rfl, he, ?_, by rw [Element.header_length, Element.size]⟩
    rw [Element.header_length, ahead_of_starts he]
    exact List.take_left
  · intro hread
    rcases hread with ⟨e, rfl, he, rfl, rfl⟩
    refine ⟨⟨e, rfl, he⟩, ?_, by rw [Element.header_length, Element.size]⟩
    rw [Element.header_length, ahead_of_starts he]
    exact List.take_left.symm

end CcnxPacket.Cursor
