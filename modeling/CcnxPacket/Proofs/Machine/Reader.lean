import CcnxPacket.Proofs.Cursor.Step
import CcnxPacket.Proofs.Machine.Run

/-!
# Readers that move in place

The reader of the machine holds all octets and one offset in them, which every read moves in place,
and computes with offsets where a cursor moves octets. A read that consists of several keeps what
the first of them moved should a later one fail. It does not come to that: a header makes sure of
all its octets before it reads the first, and a look ahead goes back only over what it has read. So
a read that fails leaves the offset where it was, no sum, difference or slice stops the machine, and
a reader does what the cursor at its place does (`Moving.Follows`).

The operations end with the first failure, so they have no use for a reader that has failed and run
reads by `Moving.applyTo`, which drops it.
-/

namespace CcnxPacket

/-- The octets of the cursor can be counted by the machine. -/
def Cursor.Fits (c : Cursor) : Prop := c.buffer.length < UInt64.size

namespace Cursor

variable {c : Cursor}

/-- Advancing leaves the input in memory. -/
theorem Fits.advance (h : c.Fits) (n : Nat) : (c.advance n).Fits := by
  rwa [Fits, buffer_advance]

theorem Fits.of_read (hfits : c.Fits) {n : Nat} {octets : Octets} {next : Cursor}
    (h : c.read n = .ok (octets, next)) : next.Fits := by
  obtain ⟨-, -, rfl⟩ := read_eq_ok_iff.1 h
  exact hfits.advance n

theorem Fits.of_readNumber (hfits : c.Fits) {width n : Nat} {next : Cursor}
    (h : c.readNumber width = .ok (n, next)) : next.Fits := by
  obtain ⟨-, -, rfl⟩ := readNumber_eq_ok_iff.1 h
  exact hfits.advance width

theorem Fits.of_readWord64 (hfits : c.Fits) {read : UInt64 × Cursor}
    (h : c.readWord64 = .ok read) : read.2.Fits := by
  obtain ⟨number, hnumber, hread⟩ := Result.bind_eq_ok_iff.1 h
  cases hread
  exact hfits.of_readNumber hnumber

theorem Fits.of_readHeader (hfits : c.Fits) {read : Header × Cursor}
    (h : c.readHeader = .ok read) : read.2.Fits := by
  obtain ⟨octets, hoctets, hread⟩ := Result.bind_eq_ok_iff.1 h
  cases hread
  exact hfits.of_read hoctets

/-- No step changes how many octets there are. -/
theorem Fits.advanceBy (hfits : c.Fits) (s : Step) : (c.advanceBy s).2.Fits := by
  rwa [Fits, buffer_advanceBy]

theorem fits_ofOctets {octets : Octets} (h : octets.length < UInt64.size) :
    (ofOctets octets).Fits := h

end Cursor

namespace Machine

/-- All octets, with the offset reached. -/
structure Reader where
  buffer : Octets
  position : Nat

namespace Reader

/-- The reader before the first octet. -/
def ofOctets (octets : Octets) : Reader := ⟨octets, 0⟩

/-- How many octets are still to be read. -/
def remaining (r : Reader) : Except Fault Nat := sub r.buffer.length r.position

end Reader

/-- A computation of the machine that moves a reader and may fail. What it moved before it failed
stays moved. -/
abbrev Moving (α : Type) : Type := StateRun Reader α

namespace Moving

/-- The result of the computation on `r`, and the reader after it, unless the machine stops. -/
def run {α : Type} (x : Moving α) (r : Reader) : Except Fault (Except Error α × Reader) :=
  StateT.run (ExceptT.run x) r

/-- What the computation on `r` returns along with the reader after it. A failure is all that is
left of a computation that fails. -/
def applyTo {α : Type} (x : Moving α) (r : Reader) : Run (α × Reader) :=
  ExceptT.mk do
    let (result, after) ← x.run r
    return result.map fun a => (a, after)

/-- Fails unless so many octets are still to be read. -/
def ensure (needed : Nat) : Moving Unit := do
  let r ← get
  let remaining ← r.remaining
  if remaining < needed then
    let available ← r.remaining
    throw (.truncatedInput r.position needed available)

/-- Moves `n` octets further on. -/
def forward (n : Nat) : Moving Unit := do
  let r ← get
  let position ← add r.position n
  set { r with position }

/-- Reads `n` octets. -/
def read (n : Nat) : Moving Octets := do
  ensure n
  let r ← get
  let stop ← add r.position n
  let octets ← slice r.buffer r.position stop
  forward n
  return octets

/-- Reads an octet. -/
def readOctet : Moving UInt8 := do
  let octets ← read 1
  let octet ← index octets 0
  return octet

/-- Reads a 16-bit number. -/
def readWord16 : Moving UInt16 := do
  let octets ← read 2
  let first ← index octets 0
  let second ← index octets 1
  return UInt16.ofNat (ofBigEndian [first, second])

/-- Reads a 64-bit number. -/
def readWord64 : Moving UInt64 := do
  let octets ← read 8
  let raw ← copyTo 8 octets
  return UInt64.ofNat (ofBigEndian raw)

/-- Passes over `n` octets. -/
def skip (n : Nat) : Moving Unit := do
  ensure n
  forward n

/-- Goes back `n` octets, at most to the first. -/
def rewind (n : Nat) : Moving Unit := do
  let r ← get
  if r.position < n then throw (.truncatedInput r.position n r.position)
  let position ← sub r.position n
  set { r with position }

/-- Reads the header of an element. -/
def readHeader : Moving Header := do
  ensure Header.width
  let type ← readWord16
  let length ← readWord16
  return { type, length }

/-- Reads the header of an element and goes back over it. -/
def peekHeader : Moving Header := do
  let header ← readHeader
  rewind Header.width
  return header

/-- Carries out one step. -/
def step : Cursor.Step → Moving Cursor.Reading
  | .octet => return .octet (← readOctet)
  | .word16 => return .word16 (← readWord16)
  | .word64 => return .word64 (← readWord64)
  | .octets n => return .octets (← read n)
  | .skip n => do
    skip n
    return .nothing
  | .rewind n => do
    rewind n
    return .nothing
  | .header => return .header (← readHeader)
  | .peek => return .header (← peekHeader)

/-- The readings of several steps, and the reader after them. Each step begins where the one before
it left the reader, also if that one failed. -/
def runAll (r : Reader) :
    List Cursor.Step → Except Fault (List (Except Error Cursor.Reading) × Reader)
  | [] => return ([], r)
  | s :: steps => do
    let (reading, r) ← (step s).run r
    let (readings, r) ← runAll r steps
    return (reading :: readings, r)

end Moving

end Machine

namespace Cursor

/-- The reader at the place of the cursor. -/
def toReader (c : Cursor) : Machine.Reader := ⟨c.buffer, c.position⟩

/-- What a read of a cursor returns, with a reader in place of the cursor. -/
def withReader {α : Type} (read : α × Cursor) : α × Machine.Reader := (read.1, read.2.toReader)

end Cursor

namespace Machine

open Cursor (withReader)

/-- The machine counts what remains as the cursor does. -/
theorem Reader.remaining_toReader (c : Cursor) : c.toReader.remaining = .ok c.remaining := by
  have hlength : c.toReader.buffer.length = c.position + c.remaining := c.length_buffer
  have hposition : c.toReader.position = c.position := rfl
  rw [remaining, hposition, hlength, sub_eq (Nat.le_add_right _ _), Nat.add_sub_cancel_left]

/-- A slice of what remains is what the cursor takes. -/
theorem Reader.slice_toReader {c : Cursor} {n : Nat} (h : n ≤ c.remaining) :
    slice c.toReader.buffer c.position (c.position + n) = .ok (c.ahead.take n) := by
  have hlength : c.buffer.length = c.position + c.remaining := c.length_buffer
  have hbuffer : c.toReader.buffer = c.buffer := rfl
  rw [hbuffer, slice_eq (Nat.le_add_right _ _) (by omega), List.drop_take, c.drop_buffer,
    Nat.add_sub_cancel_left]

namespace Moving

variable {α β : Type} {x : Moving α} {f : α → Moving β} {c next : Cursor} {n : Nat}

theorem run_bind_of_ok {r after : Reader} {a : α} (h : x.run r = .ok (.ok a, after)) :
    (x >>= f).run r = (f a).run after :=
  StateRun.run_bind_of_ok h

theorem run_bind_of_error {r after : Reader} {e : Error} (h : x.run r = .ok (.error e, after)) :
    (x >>= f).run r = .ok (.error e, after) :=
  StateRun.run_bind_of_error h

/-! ### Following a cursor -/

/-- At the place of the cursor the machine does not stop and ends as `y` does, moved to where `y`
leads or, if `y` fails, not moved at all. -/
def Follows (x : Moving α) (c : Cursor) (y : Except Error (α × Cursor)) : Prop :=
  x.run c.toReader = .ok (match y with
    | .ok (a, next) => (.ok a, next.toReader)
    | .error e => (.error e, c.toReader))

namespace Follows

variable {y : Except Error (α × Cursor)}

theorem pure (a : α) (c : Cursor) : Follows (Pure.pure a) c (.ok (a, c)) := rfl

/-- A step that does not stop the machine comes first. -/
theorem step {γ : Type} {op : Except Fault γ} {a : γ} {rest : γ → Moving α} (hop : op = .ok a)
    (h : Follows (rest a) c y) : Follows (liftM op >>= rest) c y := by
  subst hop
  exact h

/-- What comes second is to succeed, since what the first moved would stay moved. -/
theorem bind {g : α × Cursor → β × Cursor} (hx : Follows x c y)
    (hf : ∀ read, y = .ok read → Follows (f read.1) read.2 (.ok (g read))) :
    Follows (x >>= f) c (y >>= fun read => .ok (g read)) := by
  cases y with
  | error e => exact run_bind_of_error hx
  | ok read => exact (run_bind_of_ok hx).trans (hf read rfl)

/-- A reader may look at itself first. -/
theorem get_bind {f : Reader → Moving α} (h : Follows (f c.toReader) c y) :
    Follows (get >>= f) c y := h

theorem set {r : Reader} (h : next.toReader = r) :
    Follows (MonadStateOf.set r) c (.ok ((), next)) := by
  subst h
  rfl

/-- A reader that follows a read may change what was read. -/
theorem map {g : α → β} (hx : Follows x c y) :
    Follows (x >>= fun a => Pure.pure (g a)) c (y >>= fun read => .ok (g read.1, read.2)) :=
  hx.bind fun read _ => pure (g read.1) read.2

/-- The same for what becomes of an answer in two steps. -/
theorem map_answer {γ : Type} {z : Except Error γ} {k : γ → α × Cursor} {g : α → β}
    (hx : Follows x c (z >>= fun answer => .ok (k answer))) :
    Follows (x >>= fun a => Pure.pure (g a)) c
      (z >>= fun answer => .ok (g (k answer).1, (k answer).2)) := by
  cases z with
  | error e => exact hx.map
  | ok answer => exact hx.map

/-- What moves as `y` leads also runs as `y` when the reader is handed on. -/
theorem runsAs (hx : Follows x c y) : RunsAs withReader (x.applyTo c.toReader) y := by
  unfold Follows at hx
  unfold RunsAs applyTo
  rw [ExceptT.run_mk, hx]
  cases y <;> rfl

/-- The same for what becomes of an answer. -/
theorem runsAs_answer {γ : Type} {z : Except Error γ} {k : γ → α × Cursor}
    (hx : Follows x c (z >>= fun answer => .ok (k answer))) :
    RunsAs (fun answer => withReader (k answer)) (x.applyTo c.toReader) z := by
  have hrun := hx.runsAs
  unfold RunsAs at *
  rw [hrun]
  cases z <;> rfl

end Follows

/-! ### The reads -/

/-- Octets that are not ahead are a failure, the one that a cursor has. -/
theorem follows_ensure (c : Cursor) (n : Nat) :
    Follows (ensure n) c (if n ≤ c.remaining then .ok ((), c) else .error (c.truncated n)) := by
  apply Follows.get_bind
  apply Follows.step (Reader.remaining_toReader c)
  by_cases h : n ≤ c.remaining
  · rw [if_pos h, if_neg (Nat.not_lt.2 h)]
    exact .pure () c
  · rw [if_neg h, if_pos (Nat.not_le.1 h)]
    exact Follows.step (Reader.remaining_toReader c) rfl

/-- What needs octets that are ahead goes on, and what needs others fails. -/
theorem follows_ensure_bind {rest : Moving α} {y : Except Error (α × Cursor)}
    (hrest : n ≤ c.remaining → Follows rest c y)
    (hfail : c.remaining < n → y = .error (c.truncated n)) :
    Follows (ensure n >>= fun _ => rest) c y := by
  have hensure := follows_ensure c n
  by_cases h : n ≤ c.remaining
  · rw [if_pos h] at hensure
    exact (run_bind_of_ok hensure).trans (hrest h)
  · rw [if_neg h] at hensure
    rw [hfail (Nat.not_le.1 h)]
    exact run_bind_of_error hensure

/-- The same when the reader is handed on. -/
theorem runsAs_ensure_bind {φ : β → α} {rest : Unit × Reader → Run α} {y : Except Error β}
    (hrest : n ≤ c.remaining → RunsAs φ (rest ((), c.toReader)) y)
    (hfail : c.remaining < n → y = .error (c.truncated n)) :
    RunsAs φ ((ensure n).applyTo c.toReader >>= rest) y := by
  have hensure := (follows_ensure c n).runsAs
  by_cases h : n ≤ c.remaining
  · rw [if_pos h] at hensure
    exact (RunsAs.run_bind_of_ok hensure).trans (hrest h)
  · rw [if_neg h] at hensure
    rw [hfail (Nat.not_le.1 h)]
    exact RunsAs.run_bind_of_error hensure

/-- Moving forward within the buffer follows the advance of the cursor. -/
theorem follows_forward (hfits : c.Fits) (h : n ≤ c.remaining) :
    Follows (forward n) c (.ok ((), c.advance n)) := by
  have hlength : c.buffer.length = c.position + c.remaining := c.length_buffer
  have hposition : (c.advance n).position = c.position + n := Cursor.position_advance h
  have hreader : (c.advance n).toReader = { c.toReader with position := c.position + n } := by
    rw [Cursor.toReader, Cursor.buffer_advance, hposition]
    rfl
  unfold Cursor.Fits at hfits
  apply Follows.get_bind
  apply Follows.step (add_eq (by change c.position + n < _; omega))
  exact .set hreader

/-- Reading in place follows reading. -/
theorem follows_read (hfits : c.Fits) (n : Nat) : Follows (read n) c (c.read n) := by
  have hlength : c.buffer.length = c.position + c.remaining := c.length_buffer
  apply follows_ensure_bind
  · intro h
    rw [Cursor.read_of_le h]
    have hroom : c.position + n < UInt64.size := by
      unfold Cursor.Fits at hfits
      omega
    apply Follows.get_bind
    apply Follows.step (add_eq hroom)
    apply Follows.step (Reader.slice_toReader h)
    exact (follows_forward hfits h).map
  · exact Cursor.read_of_lt

/-- Reading an octet in place follows reading it. -/
theorem follows_readOctet (hfits : c.Fits) : Follows readOctet c c.readOctet := by
  have hread : c.readOctet = c.read 1 >>= fun read =>
      .ok (UInt8.ofNat (ofBigEndian read.1), read.2) := Cursor.readNumber_bind_eq 1 UInt8.ofNat
  rw [hread]
  apply (follows_read hfits 1).bind
  intro read hok
  obtain ⟨octets, next⟩ := read
  obtain ⟨octet, rfl⟩ := List.length_eq_one_iff.1 (Cursor.length_of_read hok)
  have hoctet : UInt8.ofNat (ofBigEndian [octet]) = octet := by
    simp [ofBigEndian]
  rw [hoctet]
  exact Follows.step (index_eq (show 0 < [octet].length from Nat.one_pos)) (.pure octet next)

/-- Reading a word in place follows reading it. -/
theorem follows_readWord16 (hfits : c.Fits) : Follows readWord16 c c.readWord16 := by
  have hread : c.readWord16 = c.read 2 >>= fun read =>
      .ok (UInt16.ofNat (ofBigEndian read.1), read.2) := Cursor.readNumber_bind_eq 2 UInt16.ofNat
  rw [hread]
  apply (follows_read hfits 2).bind
  intro read hok
  match read, Cursor.length_of_read hok with
  | ([first, second], next), _ =>
      apply Follows.step (index_eq (show 0 < [first, second].length from Nat.two_pos))
      apply Follows.step (index_eq (show 1 < [first, second].length from Nat.one_lt_two))
      exact .pure _ next

/-- Reading a long word in place follows reading it. -/
theorem follows_readWord64 (hfits : c.Fits) : Follows readWord64 c c.readWord64 := by
  have hread : c.readWord64 = c.read 8 >>= fun read =>
      .ok (UInt64.ofNat (ofBigEndian read.1), read.2) := Cursor.readNumber_bind_eq 8 UInt64.ofNat
  rw [hread]
  apply (follows_read hfits 8).bind
  intro read hok
  exact Follows.step (copyTo_eq (Cursor.length_of_read hok)) (.pure _ read.2)

/-- Skipping in place follows skipping. -/
theorem follows_skip (hfits : c.Fits) (n : Nat) :
    Follows (skip n) c (c.skip n >>= fun next => .ok ((), next)) := by
  rw [Cursor.skip_eq_read]
  apply follows_ensure_bind
  · intro h
    rw [Cursor.read_of_le h]
    exact follows_forward hfits h
  · intro h
    rw [Cursor.read_of_lt h]
    rfl

/-- Going back in place follows going back. -/
theorem follows_rewind (c : Cursor) (n : Nat) :
    Follows (rewind n) c (c.rewind n >>= fun next => .ok ((), next)) := by
  apply Follows.get_bind
  rcases Nat.lt_or_ge c.position n with h | h
  · have hfar : c.toReader.position < n := h
    rw [if_pos hfar, Cursor.rewind_of_lt h]
    rfl
  · have hnear : ¬ c.toReader.position < n := Nat.not_lt.2 h
    obtain ⟨next, hnext, hbuffer, hposition⟩ := Cursor.rewind_of_le h
    have hreader : next.toReader = { c.toReader with position := c.position - n } := by
      rw [Cursor.toReader, hbuffer, hposition]
      rfl
    rw [if_neg hnear, hnext, Result.ok_bind]
    exact Follows.step (sub_eq h) (.set hreader)

/-- The octets of both numbers are there before the first is read, so the second is read too. -/
theorem follows_readHeader (hfits : c.Fits) : Follows readHeader c c.readHeader := by
  apply follows_ensure_bind
  · intro h
    obtain ⟨htype, hlength, hheader⟩ := Cursor.readHeader_of_le h
    have hfirst := follows_readWord16 hfits
    have hsecond := follows_readWord16 (hfits.advance 2)
    rw [htype] at hfirst
    rw [hlength] at hsecond
    rw [hheader]
    exact (run_bind_of_ok hfirst).trans (run_bind_of_ok hsecond)
  · intro h
    rw [Cursor.readHeader, Cursor.read_of_lt h]
    rfl

/-- A header that was read can be gone back over. -/
theorem follows_peekHeader (hfits : c.Fits) :
    Follows peekHeader c (c.peekHeader >>= fun header => .ok (header, c)) := by
  have hpeek : (c.peekHeader >>= fun header => .ok (header, c)) =
      c.readHeader >>= fun read => .ok (read.1, c) := by
    unfold Cursor.peekHeader
    cases c.readHeader <;> rfl
  rw [hpeek]
  apply (follows_readHeader hfits).bind
  intro read hread
  obtain ⟨header, next⟩ := read
  obtain ⟨hheader, rfl⟩ := Cursor.readHeader_eq_ok_iff.1 hread
  have hlength := hheader.length_le
  rw [Header.length_octets] at hlength
  have hrewind := follows_rewind (c.advance Header.width) Header.width
  rw [Cursor.rewind_advance hlength] at hrewind
  exact hrewind.map

/-! ### Steps -/

/-- One step of the machine is one of the cursor. -/
theorem follows_step (hfits : c.Fits) (s : Cursor.Step) : Follows (step s) c (c.step s) := by
  cases s with
  | octet => exact (follows_readOctet hfits).map
  | word16 => exact (follows_readWord16 hfits).map
  | word64 => exact (follows_readWord64 hfits).map
  | octets n => exact (follows_read hfits n).map
  | skip n => exact (follows_skip hfits n).map_answer
  | rewind n => exact (follows_rewind c n).map_answer
  | header => exact (follows_readHeader hfits).map
  | peek => exact (follows_peekHeader hfits).map_answer

/-- A step in place does what the cursor's step does, failures included. -/
theorem run_step (hfits : c.Fits) (s : Cursor.Step) :
    (step s).run c.toReader = .ok ((c.advanceBy s).1, (c.advanceBy s).2.toReader) := by
  rw [follows_step hfits s, Cursor.advanceBy]
  cases c.step s <;> rfl

/-- Whatever the steps, those that fail included, the machine follows the cursor. -/
theorem runAll_toReader (hfits : c.Fits) (steps : List Cursor.Step) :
    runAll c.toReader steps = .ok (withReader (c.advanceByAll steps)) := by
  induction steps generalizing c with
  | nil => rfl
  | cons s steps ih =>
      have hnext : (c.advanceBy s).2.Fits := hfits.advanceBy s
      rw [runAll, run_step hfits]
      change runAll (c.advanceBy s).2.toReader steps >>= _ = _
      rw [ih hnext]
      rfl

-- Two numbers one by one stop half way, a header does not.
example :
    runAll ⟨[7, 1, 9], 0⟩ [.header, .word16, .word16] =
      .ok ([.error (.truncatedInput 0 4 3), .ok (.word16 0x0701), .error (.truncatedInput 2 2 1)],
        ⟨[7, 1, 9], 2⟩) := by
  rfl

end Moving

end Machine

end CcnxPacket
