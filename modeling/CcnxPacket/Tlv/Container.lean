import CcnxPacket.Tlv.Cursor

/-!
# Walking the elements of a container

A container's value is a sequence of elements that has to fill it exactly. The walk looks at each
header, refuses an element that ends past the container, and hands the others to a visitor, which
reads the element and folds it into a state.
-/

namespace CcnxPacket

theorem Header.elementSize_pos (header : Header) : 0 < header.elementSize := by
  unfold Header.elementSize Header.width
  omega

/-- Walks the elements in the last `left` octets of a container of `length` octets.

The visitor gets the state, the element's header and a cursor at the element's first octet. It
returns the new state and a cursor after the element. -/
def walk {σ : Type} (container : Tid) (length : Nat)
    (visit : σ → Header → Cursor → Except Error (σ × Cursor))
    (left : Nat) (state : σ) (c : Cursor) : Except Error (σ × Cursor) :=
  if left = 0 then .ok (state, c)
  else
    match c.peekHeader with
    | .error e => .error e
    | .ok header =>
      if left < header.elementSize then
        .error (.lengthOverflow (container.element header.type) c.position length)
      else
        match visit state header c with
        | .error e => .error e
        | .ok (state, c) => walk container length visit (left - header.elementSize) state c
termination_by left
decreasing_by
  have := header.elementSize_pos
  omega

/-- Walks all elements of a container whose value of `length` octets lies ahead. -/
def elements {σ : Type} (container : Tid) (length : Nat)
    (visit : σ → Header → Cursor → Except Error (σ × Cursor))
    (state : σ) (c : Cursor) : Except Error (σ × Cursor) :=
  walk container length visit length state c

/-- Reads the value of the element at the cursor. -/
def Cursor.readValue (c : Cursor) (header : Header) : Except Error (Octets × Cursor) :=
  (c.advance Header.width).read header.length.toNat

end CcnxPacket
