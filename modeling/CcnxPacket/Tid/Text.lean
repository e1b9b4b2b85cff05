import CcnxPacket.Error

/-!
# Reading type identifiers

The dotted text of an identifier is read component by component from the left, and the first bad
component is the one reported. A component is a non-empty run of ASCII digits, leading zeros
allowed, whose value fits 32 bits.
-/

namespace CcnxPacket.Tid

/-- Whether every character is an ASCII digit. -/
def allDigits (cs : List Char) : Bool := cs.all Char.isDigit

/-- The value of one component of the dotted text. -/
def parseComponent (cs : List Char) : Except TidFlaw UInt32 :=
  if cs.isEmpty then .error .emptyComponent
  else if allDigits cs then
    let value := Nat.ofDigitChars 10 cs 0
    if value < UInt32.size then .ok (UInt32.ofNat value) else .error .overflow
  else .error .notNumeric

/-- The values of all components, or what is wrong with the leftmost bad one. -/
def parseComponents : List (List Char) → Except TidFlaw (List UInt32)
  | [] => .ok []
  | part :: parts =>
    match parseComponent part with
    | .error flaw => .error flaw
    | .ok value => (parseComponents parts).map (value :: ·)

/-- The components of the dotted text, or its flaw. -/
def parseChars (cs : List Char) : Except TidFlaw Tid :=
  if cs.isEmpty then .error .empty
  else
    match parseComponents (cs.splitOn '.') with
    | .error flaw => .error flaw
    | .ok components => if h : components = [] then .error .empty else .ok ⟨components, h⟩

/-- Reads the dotted text of an identifier. -/
def parse (input : String) : Except Error Tid :=
  (parseChars input.toList).mapError (.malformedTid input ·)

/-- The identifier with the given components; there has to be one. -/
def ofComponents (components : List UInt32) : Except Error Tid :=
  match ofComponents? components with
  | some tid => .ok tid
  | none => .error (.malformedTid "" .empty)

/-- The component at a position counted from zero. -/
def component (tid : Tid) (index : Nat) : Except Error UInt32 :=
  match tid.components[index]? with
  | some value => .ok value
  | none => .error (.indexOutOfRange index tid.size)

end CcnxPacket.Tid
