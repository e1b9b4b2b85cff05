import CcnxPacket.Octets

/-!
# Names

A name is a list of segments, each a kind and a string of octets. Names are ordered segment by
segment, a segment by its kind and then by its octets, and a name comes before those that extend it.

The wire format assigns an element type to every kind. Application kinds are numbered, and only the
first four of them can be read back from the wire.
-/

namespace CcnxPacket

/-- What a name segment says. -/
inductive SegmentKind where
  | name
  | ipid
  | chunk
  | version
  | app (n : UInt8)
deriving DecidableEq, Repr

namespace SegmentKind

/-- The element type of the kind. -/
def tlvType : SegmentKind → UInt16
  | name => 0x0001
  | ipid => 0x0002
  | chunk => 0x0010
  | version => 0x0013
  | app n => 0x1000 + n.toUInt16

/-- The kind with the given element type, when the format has one. -/
def ofTlvType? (type : UInt16) : Option SegmentKind :=
  if type = 0x0001 then some name
  else if type = 0x0002 then some ipid
  else if type = 0x0010 then some chunk
  else if type = 0x0013 then some version
  else if 0x1000 ≤ type ∧ type ≤ 0x1003 then some (app (type - 0x1000).toUInt8)
  else none

/-- The label of the kind in the text of a name. -/
def label : SegmentKind → List Char
  | name => ['N', 'a', 'm', 'e']
  | ipid => ['I', 'P', 'I', 'D']
  | chunk => ['C', 'h', 'u', 'n', 'k']
  | version => ['V', 'e', 'r', 's', 'i', 'o', 'n']
  | app n => ['A', 'p', 'p', ':'] ++ Nat.toDigits 10 n.toNat

/-- The kinds whose labels are read back from the text of a name. -/
def labelled : List SegmentKind := [name, ipid, chunk, version, app 0, app 1, app 2, app 3]

/-- The kind with the given label, when it is one that is read back. -/
def ofLabel? (cs : List Char) : Option SegmentKind := labelled.find? fun kind => kind.label == cs

/-- Whether the kind has a type and a label that are read back. -/
def IsAssigned (kind : SegmentKind) : Prop := kind ∈ labelled

instance (kind : SegmentKind) : Decidable kind.IsAssigned := by
  unfold IsAssigned; infer_instance

/-- The place of the kind in the order of kinds. -/
def rank : SegmentKind → Nat
  | name => 0
  | ipid => 1
  | chunk => 2
  | version => 3
  | app n => 4 + n.toNat

end SegmentKind

/-- One segment of a name. -/
structure Segment where
  kind : SegmentKind
  value : Octets
deriving DecidableEq, Repr

/-- A name. -/
structure Name where
  segments : List Segment
deriving DecidableEq, Repr

instance : Ord Segment where
  compare a b := (compare a.kind.rank b.kind.rank).then (compare a.value b.value)

namespace Name

/-- The name without segments. -/
def empty : Name := ⟨[]⟩

instance : Ord Name where
  compare a b := compare a.segments b.segments

/-- How many segments the name has. -/
def size (name : Name) : Nat := name.segments.length

/-- Whether the name has no segments. -/
def isEmpty (name : Name) : Bool := name.segments.isEmpty

/-- Whether `other` is this name or extends it. -/
def isPrefixOf (name other : Name) : Bool := name.segments.isPrefixOf other.segments

/-- The name one segment longer. -/
def append (name : Name) (segment : Segment) : Name := ⟨name.segments ++ [segment]⟩

/-- Whether every segment has a kind that is read back from the wire and from text. -/
def IsAssigned (name : Name) : Prop := ∀ segment ∈ name.segments, segment.kind.IsAssigned

instance (name : Name) : Decidable name.IsAssigned := by
  unfold IsAssigned; infer_instance

end Name

end CcnxPacket
