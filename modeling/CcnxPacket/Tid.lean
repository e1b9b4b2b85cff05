import CcnxPacket.Octets

/-!
# Type identifiers

Every element of a packet body has a type identifier: a non-empty path of 32-bit components such as
`3.1.0`, read "packet body, Interest, Name". A child extends its parent by one component. The order
compares component by component, and an identifier comes before those that extend it.
-/

namespace CcnxPacket

/-- A non-empty path of 32-bit components. -/
structure Tid where
  components : List UInt32
  nonempty : components ≠ []
deriving DecidableEq

namespace Tid

/-- The identifier of one component. -/
def root (value : UInt32) : Tid := ⟨[value], by simp⟩

/-- The identifier with exactly these components, when there are any. -/
def ofComponents? (components : List UInt32) : Option Tid :=
  if h : components = [] then none else some ⟨components, h⟩

/-- The identifier one component longer. -/
def child (tid : Tid) (value : UInt32) : Tid := ⟨tid.components ++ [value], by simp⟩

/-- The identifier without its last component; a root has no parent. -/
def parent? (tid : Tid) : Option Tid := ofComponents? tid.components.dropLast

/-- How many components there are, at least one. -/
def size (tid : Tid) : Nat := tid.components.length

/-- The last component: for a nested element, the type of its header. -/
def last (tid : Tid) : UInt32 := tid.components.getLast tid.nonempty

/-- Whether `other` is this identifier or extends it. -/
def isPrefixOf (tid other : Tid) : Bool := tid.components.isPrefixOf other.components

instance : Ord Tid where
  compare a b := compare a.components b.components

/-- Whether `a` comes before `b` or is `b`. -/
def le (a b : Tid) : Bool := (compare a b).isLE

/-- The given identifiers in ascending order. -/
def sort (tids : List Tid) : List Tid := tids.mergeSort le

/-- The components in decimal, with a point between neighbours. -/
def text (tid : Tid) : String :=
  String.ofList ((tid.components.map fun c => Nat.toDigits 10 c.toNat).intersperse ['.']).flatten

end Tid

end CcnxPacket
