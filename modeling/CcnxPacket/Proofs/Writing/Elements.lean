import CcnxPacket.Proofs.Cursor
import CcnxPacket.Proofs.Writing.Writer

/-!
# Elements written one after the other

Types with values are written behind whatever the output holds. A value that is too long for a
header is refused and leaves the output as it was; all others stand there in order, each behind its
type and its length. A reader that takes a header, then as many octets as it says, and goes on so
until nothing is left, finds exactly what was written. So no octets come from two different
sequences of elements.
-/

namespace CcnxPacket

/-- A type with a value on the wire: the type and the length of the value in two octets each, the
more significant one first, and then the value. -/
def frame (part : UInt16 × Octets) : Octets :=
  [UInt8.ofNat (part.1.toNat / 256), UInt8.ofNat part.1.toNat,
    UInt8.ofNat (part.2.length / 256), UInt8.ofNat part.2.length] ++ part.2

/-- Writes elements one after the other, and goes on after a failure. Returns the answers, and the
output at the end. -/
def Output.writeAll (out : Output) :
    List (UInt16 × Octets) → List (Except Error Nat) × Output
  | [] => ([], out)
  | part :: parts =>
    let (answer, out) := (writeElement part.1 part.2).run out
    let (answers, out) := out.writeAll parts
    (answer :: answers, out)

/-- Those of the parts whose answer is not a failure. -/
def accepted (parts : List (UInt16 × Octets)) (answers : List (Except Error Nat)) :
    List (UInt16 × Octets) :=
  ((parts.zip answers).filter fun call => call.2.isOk).map Prod.fst

/-! ### Elements and their parts -/

namespace Element

/-- The type of the element, with its value. -/
def part (e : Element) : UInt16 × Octets := (e.type, e.value)

/-- An element is determined by its type and its value. -/
theorem part_injective : Function.Injective part := by
  intro e e' h
  obtain ⟨htype, hvalue⟩ := Prod.mk.inj h
  exact ext htype hvalue

theorem octets_eq_frame (e : Element) : e.octets = frame e.part := by
  have hlength : e.header.octets =
      bigEndian 2 e.type.toNat ++ bigEndian 2 e.header.length.toNat := rfl
  rw [octets, hlength, header_length]
  rfl

/-- Elements are written as the frames of their parts. -/
theorem concat_eq_frames (es : List Element) : concat es = (es.map part).flatMap frame := by
  rw [List.flatMap_map]
  exact congrArg (List.flatMap · es) (funext octets_eq_frame)

end Element

/-! ### Reading elements -/

namespace Cursor

/-- Reads a header and then as many octets as it says. -/
def readElement (c : Cursor) : Except Error ((UInt16 × Octets) × Cursor) := do
  let (header, c) ← c.readHeader
  let (value, c) ← c.read header.length.toNat
  return ((header.type, value), c)

/-- An element is read where its octets are ahead. -/
theorem readElement_eq_ok_iff {c next : Cursor} {part : UInt16 × Octets} :
    c.readElement = .ok (part, next) ↔
      ∃ e : Element, e.octets <+: c.ahead ∧ part = e.part ∧ next = c.advance e.size := by
  simp only [readElement, Result.bind_eq_ok_iff, Prod.exists, readHeader_eq_ok_iff,
    Result.pure_eq_ok]
  constructor
  · intro h
    obtain ⟨header, _, ⟨hheader, rfl⟩, value, next, hvalue, h⟩ := h
    obtain ⟨e, rfl, hahead, rfl, rfl⟩ := (readValue_eq_ok_iff hheader).1 hvalue
    cases h
    exact ⟨e, hahead, rfl, rfl⟩
  · intro h
    obtain ⟨e, hahead, rfl, rfl⟩ := h
    have hheader := Element.header_starts hahead
    exact ⟨e.header, _, ⟨hheader, rfl⟩, e.value, _,
      (readValue_eq_ok_iff hheader).2 ⟨e, rfl, hahead, rfl, rfl⟩, rfl⟩

/-- An element that was read is behind the cursor. -/
theorem remaining_lt_of_readElement {c next : Cursor} {part : UInt16 × Octets}
    (h : c.readElement = .ok (part, next)) : next.remaining < c.remaining := by
  obtain ⟨e, hahead, -, rfl⟩ := readElement_eq_ok_iff.1 h
  have hlength := hahead.length_le
  have := e.size_pos
  rw [Element.length_octets] at hlength
  simp only [remaining, ahead_advance, List.length_drop]
  omega

/-- Reads elements until nothing is left. -/
def readAll (c : Cursor) : Except Error (List (UInt16 × Octets) × Cursor) :=
  if c.atEnd then .ok ([], c)
  else
    match _ : c.readElement with
    | .error e => .error e
    | .ok (part, next) => next.readAll.map fun read => (part :: read.1, read.2)
termination_by c.remaining
decreasing_by exact remaining_lt_of_readElement (by assumption)

theorem readAll_of_end {c : Cursor} (h : c.ahead = []) : c.readAll = .ok ([], c) := by
  rw [readAll, if_pos (atEnd_iff.2 h)]

/-- An element ahead is read first, and then what is behind it. -/
theorem readAll_of_starts {c : Cursor} {e : Element} (h : e.octets <+: c.ahead) :
    c.readAll =
      (c.advance e.size).readAll.map fun read => (e.part :: read.1, read.2) := by
  have hread : c.readElement = .ok (e.part, c.advance e.size) :=
    readElement_eq_ok_iff.2 ⟨e, h, rfl, rfl⟩
  rw [readAll, if_neg (mt atEnd_iff.1 (Element.ne_nil_of_starts h))]
  split
  · next hfailed =>
      rw [hread] at hfailed
      cases hfailed
  · next hok =>
      rw [hread] at hok
      cases hok
      rfl

theorem remaining_at_end (c : Cursor) : (c.advance c.remaining).remaining = 0 := by
  rw [remaining, ahead_advance, List.length_drop]
  exact Nat.sub_self _

/-- Elements ahead, and nothing behind them, are all read. -/
theorem readAll_of_concat {c : Cursor} {es : List Element} (h : c.ahead = Element.concat es) :
    c.readAll = .ok (es.map Element.part, c.advance c.remaining) := by
  induction es generalizing c with
  | nil =>
      have hnone : c.remaining = 0 := List.length_eq_zero_iff.2 h
      rw [readAll_of_end h, hnone, advance_zero]
      rfl
  | cons e es ih =>
      have hstarts : e.octets <+: c.ahead := h ▸ List.prefix_append _ _
      have hrest : (c.advance e.size).ahead = Element.concat es := by
        rw [ahead_advance, h, Element.concat_cons, ← Element.length_octets, List.drop_left]
      have hend : e.size + (c.advance e.size).remaining = c.remaining := by
        rw [remaining, remaining, hrest, h, Element.concat_cons, List.length_append,
          Element.length_octets]
      rw [readAll_of_starts hstarts, ih hrest, advance_advance, hend]
      rfl

end Cursor

/-! ### Writing elements -/

/-- One call appends the element that is asked for, or it leaves the output as it was. -/
theorem run_writeElement (type : UInt16) (value : Octets) (out : Output) :
    (writeElement type value).run out =
      if value.length ≤ Header.maxLength then
        (.ok (Header.width + value.length), out.append (frame (type, value)))
      else (.error (.messageTooLarge value.length Header.maxLength), out) := by
  have hemits := Writer.emits_writeElement type value
  split
  · next hfits =>
      rw [Element.make_of_fits hfits] at hemits
      rw [hemits.run_of_ok out, Element.octets_eq_frame]
      rfl
  · next htoo =>
      rw [Element.make_of_not_fits htoo] at hemits
      exact hemits.run_of_error out

/-- The calls that succeed are those whose values fit, and what they append are elements. -/
theorem exists_elements_of_writeAll (out : Output) (parts : List (UInt16 × Octets)) :
    ∃ es : List Element,
      accepted parts (out.writeAll parts).1 = es.map Element.part ∧
      (parts.filter fun part => part.2.length ≤ Header.maxLength) = es.map Element.part ∧
      (out.writeAll parts).2 = out.append (Element.concat es) ∧
      ((out.writeAll parts).1.filterMap Except.toOption).sum = (Element.concat es).length := by
  -- Over the calls: one whose value fits puts its element in front of those of the rest.
  induction parts generalizing out with
  | nil => exact ⟨[], rfl, rfl, rfl, rfl⟩
  | cons part parts ih =>
      have hrun := run_writeElement part.1 part.2 out
      by_cases hfits : part.2.length ≤ Header.maxLength
      · rw [if_pos hfits] at hrun
        let e : Element := ⟨part.1, part.2, hfits⟩
        have hframe : frame (part.1, part.2) = e.octets := e.octets_eq_frame.symm
        obtain ⟨es, haccepted, hfilter, hout, hcounts⟩ := ih (out.append e.octets)
        have hall : out.writeAll (part :: parts) =
            (.ok e.size :: ((out.append e.octets).writeAll parts).1,
              ((out.append e.octets).writeAll parts).2) := by
          rw [Output.writeAll, hrun, hframe]
          rfl
        rw [hall]
        refine ⟨e :: es, congrArg (e.part :: ·) haccepted, ?_, ?_, ?_⟩
        · rw [List.filter_cons_of_pos (by simpa using hfits), hfilter]
          rfl
        · rw [hout, Writer.append_append]
          rfl
        · rw [Element.concat_cons, List.length_append, Element.length_octets, ← hcounts]
          rfl
      · rw [if_neg hfits] at hrun
        obtain ⟨es, haccepted, hfilter, hout, hcounts⟩ := ih out
        have hall : out.writeAll (part :: parts) =
            (.error (.messageTooLarge part.2.length Header.maxLength) :: (out.writeAll parts).1,
              (out.writeAll parts).2) := by
          rw [Output.writeAll, hrun]
        rw [hall]
        refine ⟨es, haccepted, ?_, hout, hcounts⟩
        rw [List.filter_cons_of_neg (by simpa using hfits), hfilter]

-- Each value stands behind its type and its length, also an empty one.
example :
    (Output.empty.writeAll [(0x0102, [97]), (0x8003, [])]).2.octets =
      [1, 2, 0, 1, 97, 0x80, 3, 0, 0] := by
  decide

/-- Whatever is written and wherever the output stands, a call fails exactly if its value is longer
than a header can say, and then it changes nothing. All others follow each other in the output,
their answers count its octets, and a reader that alternates between headers and values gets back
what they were asked to write, with nothing left. So the octets tell the elements. -/
theorem elements_read_back (out : Output) (parts : List (UInt16 × Octets)) :
    let written := out.writeAll parts
    let kept := accepted parts written.1
    (∀ (type : UInt16) (value : Octets) (before : Output),
      (writeElement type value).run before =
        if value.length ≤ Header.maxLength then
          (.ok (Header.width + value.length), before.append (frame (type, value)))
        else (.error (.messageTooLarge value.length Header.maxLength), before)) ∧
    kept = (parts.filter fun part => part.2.length ≤ Header.maxLength) ∧
    written.2.octets = out.octets ++ kept.flatMap frame ∧
    out.size + (written.1.filterMap Except.toOption).sum = written.2.size ∧
    (∃ last, ((Cursor.ofOctets written.2.octets).advance out.size).readAll = .ok (kept, last) ∧
      last.remaining = 0) ∧
    ∀ others, (out.writeAll others).2.octets = written.2.octets ↔
      accepted others (out.writeAll others).1 = kept := by
  intro written kept
  obtain ⟨es, haccepted, hfilter, hout, hcounts⟩ := exists_elements_of_writeAll out parts
  have hkept : kept = es.map Element.part := haccepted
  have hoctets : written.2.octets = out.octets ++ Element.concat es := by
    rw [hout, Output.octets_append]
  refine ⟨run_writeElement, hkept.trans hfilter.symm, ?_, ?_, ?_, ?_⟩
  · rw [hoctets, hkept, Element.concat_eq_frames]
  · have hsize : ∀ out : Output, out.size = out.octets.length := fun _ => List.length_reverse.symm
    rw [hcounts, hsize, hsize, hoctets, List.length_append]
  · have hahead : ((Cursor.ofOctets written.2.octets).advance out.size).ahead =
        Element.concat es := by
      rw [Cursor.ahead_advance, Cursor.ahead_ofOctets, hoctets]
      exact List.drop_left' List.length_reverse
    rw [hkept]
    exact ⟨_, Cursor.readAll_of_concat hahead, Cursor.remaining_at_end _⟩
  -- Both outputs go on with elements, and their octets tell these.
  · intro others
    obtain ⟨es', haccepted', -, hout', -⟩ := exists_elements_of_writeAll out others
    rw [hoctets, hout', Output.octets_append, haccepted', hkept, List.append_cancel_left_eq,
      List.map_inj_right Element.part_injective]
    exact ⟨fun h => Element.concat_injective h, congrArg Element.concat⟩

end CcnxPacket
