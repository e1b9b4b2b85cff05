import CcnxPacket.Error

/-!
# Reading position in a string of octets

A cursor splits a string of octets at the place reached so far. Every read first checks that the
octets it needs are there, so a read that fails has not moved, and its error names the place, the
octets needed and the octets available.

An element on the wire is a type, a length and a value of that length; type and length are sixteen
bits each and form the element's header.
-/

namespace CcnxPacket

/-- Whether a list has at least `n` members, looking at no more than `n` of them. -/
def hasAtLeast {α : Type} : (n : Nat) → List α → Bool
  | 0, _ => true
  | _ + 1, [] => false
  | n + 1, _ :: xs => hasAtLeast n xs

theorem hasAtLeast_iff {α : Type} {n : Nat} {xs : List α} :
    hasAtLeast n xs = true ↔ n ≤ xs.length := by
  induction n generalizing xs with
  | zero => simp [hasAtLeast]
  | succ n ih => cases xs <;> simp [hasAtLeast, ih]

/-- Type and value length of an element. -/
structure Header where
  type : UInt16
  length : UInt16
deriving DecidableEq, Repr

namespace Header

/-- Octets that a header takes. -/
def width : Nat := 4

/-- The longest value whose length a header can hold. -/
def maxLength : Nat := 65535

/-- Octets of the whole element, header and value. -/
def elementSize (header : Header) : Nat := width + header.length.toNat

/-- The header on the wire. -/
def octets (header : Header) : Octets :=
  bigEndian 2 header.type.toNat ++ bigEndian 2 header.length.toNat

/-- The header that the given octets spell. -/
def ofOctets (octets : Octets) : Header :=
  { type := UInt16.ofNat (ofBigEndian (octets.take 2))
    length := UInt16.ofNat (ofBigEndian (octets.drop 2)) }

end Header

/-- A string of octets split at the reading position. -/
structure Cursor where
  /-- The octets already passed, the nearest first. -/
  behind : Octets
  /-- The octets still to be read. -/
  ahead : Octets
deriving DecidableEq

namespace Cursor

/-- The cursor before the first octet. -/
def ofOctets (octets : Octets) : Cursor := ⟨[], octets⟩

/-- How many octets have been passed. -/
def position (c : Cursor) : Nat := c.behind.length

/-- How many octets are still to be read. -/
def remaining (c : Cursor) : Nat := c.ahead.length

/-- All octets, passed or not. -/
def buffer (c : Cursor) : Octets := c.behind.reverseAux c.ahead

/-- Whether everything has been read. -/
def atEnd (c : Cursor) : Bool := c.ahead.isEmpty

/-- The cursor `n` octets further on, or at the end. -/
def advance (c : Cursor) (n : Nat) : Cursor :=
  ⟨(c.ahead.take n).reverseAux c.behind, c.ahead.drop n⟩

/-- The failure of a read that needs more octets than there are. -/
def truncated (c : Cursor) (needed : Nat) : Error :=
  .truncatedInput c.position needed c.remaining

/-- Reads `n` octets. -/
def read (c : Cursor) (n : Nat) : Except Error (Octets × Cursor) :=
  if hasAtLeast n c.ahead then .ok (c.ahead.take n, c.advance n) else .error (c.truncated n)

/-- Passes over `n` octets. -/
def skip (c : Cursor) (n : Nat) : Except Error Cursor :=
  if hasAtLeast n c.ahead then .ok (c.advance n) else .error (c.truncated n)

/-- Reads a number of `width` octets, most significant first. -/
def readNumber (c : Cursor) (width : Nat) : Except Error (Nat × Cursor) := do
  let (octets, c) ← c.read width
  return (ofBigEndian octets, c)

/-- Reads an octet. -/
def readOctet (c : Cursor) : Except Error (UInt8 × Cursor) := do
  let (n, c) ← c.readNumber 1
  return (UInt8.ofNat n, c)

/-- Reads a 16-bit number. -/
def readWord16 (c : Cursor) : Except Error (UInt16 × Cursor) := do
  let (n, c) ← c.readNumber 2
  return (UInt16.ofNat n, c)

/-- Reads a 64-bit number. -/
def readWord64 (c : Cursor) : Except Error (UInt64 × Cursor) := do
  let (n, c) ← c.readNumber 8
  return (UInt64.ofNat n, c)

/-- Reads the header of an element. -/
def readHeader (c : Cursor) : Except Error (Header × Cursor) := do
  let (octets, c) ← c.read Header.width
  return (Header.ofOctets octets, c)

/-- Reads the header of an element without moving. -/
def peekHeader (c : Cursor) : Except Error Header := do
  let (header, _) ← c.readHeader
  return header

/-- Goes back `n` octets, at most to the first; a failure counts the octets passed as available. -/
def rewind (c : Cursor) (n : Nat) : Except Error Cursor :=
  if hasAtLeast n c.behind then .ok ⟨c.behind.drop n, (c.behind.take n).reverseAux c.ahead⟩
  else .error (.truncatedInput c.position n c.position)

/-! ### Sequences of reads -/

/-- One use of a cursor. -/
inductive Step where
  | octet
  | word16
  | word64
  | octets (n : Nat)
  | skip (n : Nat)
  | rewind (n : Nat)
  | header
  | peek
deriving DecidableEq, Repr

/-- What a step reads. -/
inductive Reading where
  | octet (value : UInt8)
  | word16 (value : UInt16)
  | word64 (value : UInt64)
  | octets (value : Octets)
  | header (value : Header)
  | nothing
deriving DecidableEq, Repr

/-- Carries out one step. -/
def step (c : Cursor) : Step → Except Error (Reading × Cursor)
  | .octet => return (← c.readOctet).map .octet id
  | .word16 => return (← c.readWord16).map .word16 id
  | .word64 => return (← c.readWord64).map .word64 id
  | .octets n => return (← c.read n).map .octets id
  | .skip n => return (.nothing, ← c.skip n)
  | .rewind n => return (.nothing, ← c.rewind n)
  | .header => return (← c.readHeader).map .header id
  | .peek => return (.header (← c.peekHeader), c)

/-- The reading of one step, if any, and the cursor after it: a step that fails does not move. -/
def advanceBy (c : Cursor) (s : Step) : Except Error Reading × Cursor :=
  match c.step s with
  | .ok (reading, after) => (.ok reading, after)
  | .error e => (.error e, c)

end Cursor

end CcnxPacket
