import CcnxPacket.Proofs.Machine.Reader

/-!
# What a cursor does over any steps

However a cursor is used, it stays within its octets and loses none of them, and a step that fails
does not move it. Going back over what several steps passed leads to where they began. The machine,
which moves one offset in place, does the same.
-/

namespace CcnxPacket.Cursor

/-- How far those of the steps that succeed move, taken together. -/
def moved (c : Cursor) : List Step → Int
  | [] => 0
  | s :: steps =>
    let (reading, next) := c.advanceBy s
    (if reading.isOk then s.shift else 0) + next.moved steps

variable {c : Cursor}

/-- Each step moves as far as it counts. -/
theorem position_advanceBy (c : Cursor) (s : Step) :
    ((c.advanceBy s).2.position : Int) = c.position + c.moved [s] := by
  rcases Nat.lt_or_ge (s.available c) s.needed with h | h
  · rw [moved, advanceBy_of_error (step_of_lacking h)]
    exact (Int.add_zero _).symm
  · obtain ⟨reading, next, hstep, hleads⟩ := step_of_available h
    rw [moved, advanceBy_of_ok hstep]
    exact hleads.position.trans (congrArg _ (Int.add_zero _).symm)

/-- Several steps do not change the octets, and they move as far as they count together. -/
theorem place_advanceByAll (c : Cursor) (steps : List Step) :
    (c.advanceByAll steps).2.buffer = c.buffer ∧
      ((c.advanceByAll steps).2.position : Int) = c.position + c.moved steps := by
  induction steps generalizing c with
  | nil => exact ⟨rfl, (Int.add_zero _).symm⟩
  | cons s steps ih =>
      have hposition := c.position_advanceBy s
      obtain ⟨hbufferAll, hpositionAll⟩ := ih (c.advanceBy s).2
      refine ⟨hbufferAll.trans (c.buffer_advanceBy s), hpositionAll.trans ?_⟩
      simp only [moved] at *
      omega

/-- Going back as far as several steps moved undoes them. -/
theorem advanceBy_rewind_moved {steps : List Step} {n : Nat} (h : c.moved steps = n) :
    (c.advanceByAll steps).2.advanceBy (.rewind n) = (.ok .nothing, c) := by
  obtain ⟨hbuffer, hposition⟩ := c.place_advanceByAll steps
  obtain ⟨next, hnext, hleads⟩ := leads_rewind (c := (c.advanceByAll steps).2) (n := n) (by omega)
  have hback : (next.position : Int) = (c.advanceByAll steps).2.position - n := hleads.position
  have hsame : next = c := eq_of_place (hleads.buffer.trans hbuffer) (by omega)
  rw [advanceBy_of_ok hnext, hsame]

/-- Whatever was done before, a cursor stands within its octets, the same as at the start. Every
step succeeds exactly if its octets are there, moves by its width and shows what stands at its
place, and otherwise leaves the cursor where it is. A look ahead shows what a read would, and any
steps can be undone by going back. The machine, which moves one offset of 64 bits in place, does all
of this without a fault, however many octets a step asks for. -/
theorem place_after_steps (buffer : Octets) (steps : List Step) :
    let c := ((ofOctets buffer).advanceByAll steps).2
    c.buffer = buffer ∧ c.position ≤ buffer.length ∧ c.position + c.remaining = buffer.length ∧
    (∀ s : Step,
      (s.needed ≤ s.available c →
        ∃ reading next, c.advanceBy s = (.ok reading, next) ∧ s.Leads c reading next) ∧
      (s.available c < s.needed →
        c.advanceBy s = (.error (.truncatedInput c.position s.needed (s.available c)), c))) ∧
    c.advanceBy .peek = ((c.advanceBy .header).1, c) ∧
    (∀ (more : List Step) (n : Nat), c.moved more = n →
      (c.advanceByAll more).2.advanceBy (.rewind n) = (.ok .nothing, c)) ∧
    (buffer.length < UInt64.size →
      Machine.Moving.runAll (Machine.Reader.ofOctets buffer) steps =
          .ok (((ofOctets buffer).advanceByAll steps).1, ⟨buffer, c.position⟩) ∧
        ∀ s : Step, (Machine.Moving.step s).run ⟨buffer, c.position⟩ =
          .ok ((c.advanceBy s).1, ⟨buffer, (c.advanceBy s).2.position⟩)) := by
  intro c
  have hbuffer : c.buffer = buffer := ((ofOctets buffer).place_advanceByAll steps).1
  have hlength : c.position + c.remaining = buffer.length := by
    rw [← hbuffer, length_buffer, remaining]
  refine ⟨hbuffer, by omega, hlength, ?_, c.advanceBy_peek, fun _ _ => advanceBy_rewind_moved, ?_⟩
  · intro s
    refine ⟨?_, fun h => advanceBy_of_error (step_of_lacking h)⟩
    intro h
    obtain ⟨reading, next, hstep, hleads⟩ := step_of_available h
    exact ⟨reading, next, advanceBy_of_ok hstep, hleads⟩
  · intro hfits
    -- To the machine a cursor over the octets is its position in them.
    have hreader {c' : Cursor} (h : c'.buffer = buffer) : c'.toReader = ⟨buffer, c'.position⟩ := by
      rw [toReader, h]
    refine ⟨?_, ?_⟩
    · rw [← hreader hbuffer]
      exact Machine.Moving.runAll_toReader (fits_ofOctets hfits) steps
    · intro s
      have hc : c.Fits := by
        rwa [Fits, hbuffer]
      rw [← hreader hbuffer, ← hreader ((c.buffer_advanceBy s).trans hbuffer)]
      exact Machine.Moving.run_step hc s

/-- A header that is not there, octets beyond all counting, and steps that are undone. -/
theorem place_after_shortInput :
    let c := ((ofOctets [7, 1, 9]).advanceByAll [.header, .octet]).2
    c.advanceBy (.octets (2 ^ 64 - 1)) = (.error (.truncatedInput 1 (2 ^ 64 - 1) 2), c) ∧
      (c.advanceByAll [.word16, .octet, .rewind 1]).2.advanceBy (.rewind 1) = (.ok .nothing, c) ∧
      Machine.Moving.runAll (Machine.Reader.ofOctets [7, 1, 9]) [.header, .octet] =
        .ok ([.error (.truncatedInput 0 4 3), .ok (.octet 7)], ⟨[7, 1, 9], 1⟩) ∧
      (Machine.Moving.step .header).run ⟨[7, 1, 9], 1⟩ =
        .ok (.error (.truncatedInput 1 4 2), ⟨[7, 1, 9], 1⟩) := by
  intro c
  obtain ⟨-, -, -, hstep, -, hundo, hmachine⟩ := place_after_steps [7, 1, 9] [.header, .octet]
  obtain ⟨hall, hone⟩ := hmachine (by decide)
  exact ⟨(hstep (.octets (2 ^ 64 - 1))).2 (by decide), hundo _ 1 (by decide), hall, hone .header⟩

end CcnxPacket.Cursor
