import CcnxPacket.Tlv.Cursor

/-!
# Writing elements

Writers append to an output that they may already find filled. A writer that fails keeps what it
appended before the failure, so that the state of the output after a failure can be stated. The one
way to fail here is a value longer than sixteen bits can count.
-/

namespace CcnxPacket

/-- Octets under construction. -/
structure Output where
  /-- The octets written so far, the last one first. -/
  reversed : Octets
deriving DecidableEq

namespace Output

/-- Nothing written yet. -/
def empty : Output := ⟨[]⟩

/-- The octets written so far, in order. -/
def octets (out : Output) : Octets := out.reversed.reverse

/-- How many octets have been written. -/
def size (out : Output) : Nat := out.reversed.length

/-- The output with more octets after those written so far. -/
def append (out : Output) (octets : Octets) : Output := ⟨octets.reverseAux out.reversed⟩

/-- An output that already holds the given octets. -/
def ofOctets (octets : Octets) : Output := empty.append octets

@[simp] theorem octets_empty : empty.octets = [] := rfl

@[simp] theorem octets_append (out : Output) (octets : Octets) :
    (out.append octets).octets = out.octets ++ octets := by
  simp [Output.append, Output.octets, List.reverseAux_eq]

end Output

/-- A computation that appends to an output and may fail. -/
abbrev Writer (α : Type) : Type := ExceptT Error (StateM Output) α

namespace Writer

/-- The result of the writer on `out`, and the output after it. -/
def run {α : Type} (writer : Writer α) (out : Output) : Except Error α × Output :=
  StateT.run (ExceptT.run writer) out

/-- The octets that the writer appends, unless it fails. -/
def toOctets {α : Type} (writer : Writer α) : Except Error Octets :=
  match writer.run .empty with
  | (.ok _, out) => .ok out.octets
  | (.error e, _) => .error e

/-- Appends octets as they are. -/
def write (octets : Octets) : Writer Unit :=
  modify fun out => out.append octets

end Writer

/-- A length that a header can hold. -/
def checkLength (length : Nat) : Except Error UInt16 :=
  if length ≤ Header.maxLength then .ok (UInt16.ofNat length)
  else .error (.messageTooLarge length Header.maxLength)

/-- Writes the header of an element whose value has the given length. -/
def writeHeader (type : UInt16) (length : Nat) : Writer Unit := do
  let length ← checkLength length
  Writer.write (Header.octets ⟨type, length⟩)

/-- Writes an element and returns its size. -/
def writeElement (type : UInt16) (value : Octets) : Writer Nat := do
  writeHeader type value.length
  Writer.write value
  return Header.width + value.length

end CcnxPacket
