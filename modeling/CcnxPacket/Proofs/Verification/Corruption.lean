import CcnxPacket.Proofs.Hash.Crc32c
import CcnxPacket.Proofs.Verification.Verdict

/-!
# What checksums detect

A packet body that passes with the checksum suite ends with the check value of everything before the
header in front of it, however its lengths frame the rest. Two such bodies of one size that agree
outside of four successive octets are equal: their headers keep the octets that are covered four
octets away from the check value, so a burst that changes the former leaves the latter as it is.
-/

namespace CcnxPacket

/-! ### Bursts -/

/-- The octets agree at every place but `width` successive ones from `start`. -/
def AgreeOutside (start width : Nat) (octets octets' : Octets) : Prop :=
  ∀ i, i < start ∨ start + width ≤ i → octets[i]? = octets'[i]?

/-- The octets are as many, but they differ, and only within `width` successive places. -/
structure Burst (width : Nat) (octets octets' : Octets) : Prop where
  length : octets'.length = octets.length
  differ : octets' ≠ octets
  within : ∃ start, AgreeOutside start width octets octets'

namespace AgreeOutside

variable {start width : Nat} {octets octets' : Octets}

theorem take (h : AgreeOutside start width octets octets') (n : Nat) :
    AgreeOutside start width (octets.take n) (octets'.take n) := by
  intro i hi
  rw [List.getElem?_take, List.getElem?_take, h i hi]

/-- In front of the window nothing differs. -/
theorem take_eq (h : AgreeOutside start width octets octets') {n : Nat} (hn : n ≤ start) :
    octets.take n = octets'.take n := by
  apply List.ext_getElem?
  intro i
  rw [List.getElem?_take, List.getElem?_take]
  split
  · next hi => exact h i (.inl (by omega))
  · rfl

/-- Behind the window nothing differs. -/
theorem drop_eq (h : AgreeOutside start width octets octets') {n : Nat} (hn : start + width ≤ n) :
    octets.drop n = octets'.drop n := by
  apply List.ext_getElem?
  intro i
  rw [List.getElem?_drop, List.getElem?_drop]
  exact h (n + i) (.inr (by omega))

end AgreeOutside

/-- Octets with one check value that agree outside of four successive places are equal. -/
theorem Crc32c.eq_of_digest_eq_of_agreeOutside {start : Nat} {octets octets' : Octets}
    (hlength : octets.length = octets'.length) (h : AgreeOutside start 4 octets octets')
    (hdigest : digest octets = digest octets') : octets = octets' := by
  have hsplit : ∀ octets : Octets, octets =
      octets.take start ++ (octets.drop start).take 4 ++ octets.drop (start + 4) := by
    intro octets
    rw [List.append_assoc, ← List.drop_drop, List.take_append_drop, List.take_append_drop]
  have hbefore := h.take_eq (Nat.le_refl start)
  have hafter := h.drop_eq (Nat.le_refl (start + 4))
  rw [hsplit octets, hsplit octets', ← hbefore, ← hafter] at hdigest
  have hwindow := Crc32c.eq_of_digest_eq (by simp [hlength]) (List.length_take_le _ _) hdigest
  rw [hsplit octets, hsplit octets', ← hbefore, ← hafter, hwindow]

/-! ### Bodies that pass -/

/-- Octets with the section that holds their check value behind them. -/
def checksummed (covered : Octets) : Octets :=
  covered ++ Header.octets ⟨TlvType.validationPayload, 4⟩ ++ Crc32c.digest covered

/-- A section with a checksum takes eight octets. -/
theorem length_checksummed (covered : Octets) :
    (checksummed covered).length = covered.length + 8 := by
  simp [checksummed, Crc32c.digest, Header.width]

theorem take_checksummed (covered : Octets) :
    (checksummed covered).take covered.length = covered := by
  rw [checksummed, List.append_assoc, List.take_left]

theorem drop_checksummed (covered : Octets) :
    (checksummed covered).drop (covered.length + 4) = Crc32c.digest covered := by
  apply List.drop_left'
  simp [Header.width]

namespace PacketCodec

variable {codec : PacketCodec} {octets octets' : Octets}

/-- What is verified decodes, and its signature is vouched for. -/
theorem vouches_of_verify {verifier : Verifier} (h : codec.verify octets verifier = .ok true) :
    ∃ decoded, codec.decode octets = .ok decoded ∧ verifier.Vouches octets decoded.body := by
  obtain ⟨decoded, hdecode, hverify⟩ := Result.bind_eq_ok_iff.1 h
  rcases verifyDecoded_of_decode verifier hdecode with ⟨-, hvouches⟩ | ⟨hfalse, -⟩
  · exact ⟨decoded, hdecode, hvouches⟩
  · rw [hfalse] at hverify
    cases hverify

/-- What passes with the checksum suite ends with the check value of what is before its header. -/
theorem exists_checksummed_of_verify
    (h : codec.verify octets (Verifier.ofScheme .crc32c) = .ok true) :
    ∃ covered, octets = checksummed covered := by
  obtain ⟨decoded, -, alg, covered, payload, -, -, hframing, htype, -, haccepts⟩ :=
    vouches_of_verify h
  rcases haccepts with ⟨-, hvalue⟩ | ⟨key, -, -⟩
  · have hdigest : payload.value = Crc32c.digest covered := hvalue
    refine ⟨covered, ?_⟩
    rw [hframing, checksummed, Element.octets, Element.header, htype, hdigest, List.append_assoc]
    rfl
  · exact (key : Empty).elim

/-- No burst of at most four octets, wherever it lies, turns a body that passes with the checksum
suite into one that passes. -/
theorem verify_ne_ok_true_of_burst (codec : PacketCodec)
    (h : codec.verify octets (Verifier.ofScheme .crc32c) = .ok true)
    (hburst : Burst 4 octets octets') :
    codec.verify octets' (Verifier.ofScheme .crc32c) ≠ .ok true := by
  intro h'
  obtain ⟨covered, rfl⟩ := exists_checksummed_of_verify h
  obtain ⟨covered', rfl⟩ := exists_checksummed_of_verify h'
  obtain ⟨hlength, hdiffer, start, hagree⟩ := hburst
  rw [length_checksummed, length_checksummed, Nat.add_right_cancel_iff] at hlength
  apply hdiffer
  by_cases hstart : start < covered.length
  · -- The burst ends before the check value, which is therefore the same.
    have hafter : start + 4 ≤ covered.length + 4 := by omega
    have hdigest := hagree.drop_eq hafter
    rw [drop_checksummed, ← hlength, drop_checksummed] at hdigest
    have hcovered := hagree.take covered.length
    rw [take_checksummed, ← hlength, take_checksummed] at hcovered
    rw [Crc32c.eq_of_digest_eq_of_agreeOutside hlength.symm hcovered hdigest]
  · -- The burst begins behind what is covered, and what is covered determines the rest.
    have hcovered := hagree.take_eq (Nat.not_lt.1 hstart)
    rw [take_checksummed, ← hlength, take_checksummed] at hcovered
    rw [hcovered]

/-- An Interest named by one segment, with its check value. -/
def checkedInterest : Octets :=
  [0, 1, 0, 9, 0, 0, 0, 5, 0, 1, 0, 1, 97, 0, 3, 0, 4, 0, 2, 0, 0, 0, 4, 0, 4, 174, 45, 12, 251]

/-- `checkedInterest` with another length of the message and another type of its name. -/
def damagedInterest : Octets :=
  [0, 1, 0, 5, 0, 1, 0, 5, 0, 1, 0, 1, 97, 0, 3, 0, 4, 0, 2, 0, 0, 0, 4, 0, 4, 174, 45, 12, 251]

theorem verify_damagedInterest :
    verify { registry := .shared } checkedInterest (Verifier.ofScheme .crc32c) = .ok true ∧
      Burst 4 checkedInterest damagedInterest ∧
      verify { registry := .shared } damagedInterest (Verifier.ofScheme .crc32c) ≠ .ok true := by
  have hverify :
      verify { registry := .shared } checkedInterest (Verifier.ofScheme .crc32c) = .ok true := by
    decide +kernel
  have hagree : AgreeOutside 3 4 checkedInterest damagedInterest := by
    intro i hi
    rcases hi with hi | hi
    · have hplace : i = 0 ∨ i = 1 ∨ i = 2 := by omega
      rcases hplace with rfl | rfl | rfl <;> rfl
    · obtain ⟨k, rfl⟩ := Nat.exists_eq_add_of_le' hi
      rfl
  have hburst : Burst 4 checkedInterest damagedInterest := ⟨rfl, by decide, 3, hagree⟩
  exact ⟨hverify, hburst, verify_ne_ok_true_of_burst _ hverify hburst⟩

end PacketCodec

end CcnxPacket
