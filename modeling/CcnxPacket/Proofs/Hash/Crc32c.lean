import CcnxPacket.Hash.Crc32c
import CcnxPacket.Proofs.Octets

/-!
# What the CRC-32C tells apart

A step of the register is linear over exclusive or and can be undone, so registers that differ still
differ after the same octets. Four octets fill the register and no bit of theirs is lost in it, so
octets of one length that differ, and only within four successive places, have different check
values.
-/

namespace CcnxPacket.Crc32c

/-! ### Steps of the register -/

/-- A set bit that falls off the register puts the polynomial back into it. -/
theorem shift_eq (register : UInt32) :
    shift register =
      (register >>> 1) ^^^ (if register.toNat.testBit 0 then polynomial else 0) := by
  have hbit : register &&& 1 = 1 ↔ register.toNat.testBit 0 = true := by
    rw [← UInt32.toNat_inj, UInt32.toNat_and, Nat.testBit_zero]
    simp [Nat.and_one_is_mod]
  unfold shift
  by_cases h : register.toNat.testBit 0 <;> simp [hbit, h]

/-- A shift of the register is linear. -/
theorem shift_xor (a b : UInt32) : shift (a ^^^ b) = shift a ^^^ shift b := by
  have hbit : (a ^^^ b).toNat.testBit 0 = (a.toNat.testBit 0 ^^ b.toNat.testBit 0) := by
    rw [UInt32.toNat_xor, Nat.testBit_xor]
  have hback : ∀ x y : Bool, (if x ^^ y then polynomial else 0) =
      (if x then polynomial else 0) ^^^ (if y then polynomial else 0) := by
    decide
  rw [shift_eq, shift_eq a, shift_eq b, hbit, hback, UInt32.shiftRight_xor]
  ac_rfl

/-- Any number of shifts is linear. -/
theorem shifts_xor (n : Nat) (a b : UInt32) : shifts n (a ^^^ b) = shifts n a ^^^ shifts n b := by
  induction n generalizing a b with
  | zero => rfl
  | succ n ih => rw [shifts, shift_xor, ih, ← shifts, ← shifts]

/-- The polynomial has the highest bit, so a register without it came from one whose lowest bit was
not set. -/
theorem toNat_of_shift_lt {register : UInt32} (h : (shift register).toNat < 2 ^ 31) :
    register.toNat = 2 * (shift register).toNat := by
  have hlt := register.toNat_lt
  have hhalf : (register >>> 1).toNat = register.toNat / 2 := by
    rw [UInt32.toNat_shiftRight]
    rfl
  have hhigh : (shift register).toNat.testBit 31 = register.toNat.testBit 0 := by
    have hfree : (register.toNat / 2).testBit 31 = false :=
      Nat.testBit_lt_two_pow (by omega)
    rw [shift_eq, UInt32.toNat_xor, Nat.testBit_xor, hhalf, hfree, Bool.false_xor]
    cases register.toNat.testBit 0 <;> rfl
  have hlow : register.toNat.testBit 0 = false := by
    rw [← hhigh]
    exact Nat.testBit_lt_two_pow h
  have heven : register.toNat % 2 = 0 := by
    simpa [Nat.testBit_zero] using hlow
  rw [shift_eq, hlow]
  simp only [Bool.false_eq_true, if_false, UInt32.xor_zero, hhalf]
  omega

/-- A register that a number of steps make small is determined by what they make of it. -/
theorem toNat_of_shifts_lt {n : Nat} {register : UInt32}
    (h : 2 ^ n * (shifts n register).toNat < 2 ^ 32) :
    register.toNat = 2 ^ n * (shifts n register).toNat := by
  induction n generalizing register with
  | zero => simp [shifts]
  | succ n ih =>
      rw [shifts, Nat.pow_succ, Nat.mul_right_comm] at *
      have hshift : (shift register).toNat = 2 ^ n * (shifts n (shift register)).toNat :=
        ih (by omega)
      have hone : register.toNat = 2 * (shift register).toNat := toNat_of_shift_lt (by omega)
      omega

/-- Shifts lose nothing of the register. -/
theorem shifts_injective (n : Nat) : Function.Injective (shifts n) := by
  intro a b h
  have hzero : shifts n (a ^^^ b) = 0 := by
    rw [shifts_xor, h, UInt32.xor_self]
  have hnumber : (a ^^^ b).toNat = 2 ^ n * (shifts n (a ^^^ b)).toNat :=
    toNat_of_shifts_lt (by simp [hzero])
  rw [hzero] at hnumber
  exact UInt32.xor_eq_zero_iff.1 (UInt32.toNat_inj.1 (by simpa using hnumber))

/-! ### Octets -/

/-- Registers that take in octets differ by eight shifts of what differed before. -/
theorem feed_xor (a b : UInt32) (octet octet' : UInt8) :
    feed a octet ^^^ feed b octet' =
      shifts 8 (a ^^^ b ^^^ (octet.toUInt32 ^^^ octet'.toUInt32)) := by
  rw [feed, feed, ← shifts_xor]
  congr 1
  ac_rfl

/-- Octets differ in the last eight bits of the register only. -/
theorem toNat_octets_xor_lt (octet octet' : UInt8) :
    (octet.toUInt32 ^^^ octet'.toUInt32).toNat < 2 ^ 8 := by
  rw [UInt32.toNat_xor, UInt8.toNat_toUInt32, UInt8.toNat_toUInt32]
  exact Nat.xor_lt_two_pow octet.toNat_lt octet'.toNat_lt

/-- Registers that differ still differ after the same octets. -/
theorem feeds_injective (octets : Octets) :
    Function.Injective fun register => octets.foldl feed register := by
  induction octets with
  | nil => exact Function.injective_id
  | cons octet octets ih =>
      apply ih.comp
      intro a b h
      exact (UInt32.xor_left_inj _).1 (shifts_injective 8 h)

/-- What octets make of a difference of registers determines the difference, when it is small. -/
theorem toNat_of_feed_lt {a b : UInt32} {octet octet' : UInt8}
    (h : (feed a octet ^^^ feed b octet').toNat < 2 ^ 24) :
    (a ^^^ b ^^^ (octet.toUInt32 ^^^ octet'.toUInt32)).toNat =
      2 ^ 8 * (feed a octet ^^^ feed b octet').toNat := by
  rw [feed_xor] at *
  exact toNat_of_shifts_lt (by omega)

/-- Registers that up to four octets make equal differ in as many low bits as the octets have. -/
theorem toNat_xor_lt_of_feeds_eq {octets octets' : Octets} {a b : UInt32}
    (hlength : octets.length = octets'.length) (hshort : octets.length ≤ 4)
    (h : octets.foldl feed a = octets'.foldl feed b) :
    (a ^^^ b).toNat < 2 ^ (8 * octets.length) := by
  -- Backwards from the same register: with each octet the difference may grow by eight bits.
  induction octets generalizing octets' a b with
  | nil =>
      obtain rfl := List.length_eq_zero_iff.1 hlength.symm
      have hsame : a = b := h
      simp [hsame]
  | cons octet octets ih =>
      obtain ⟨octet', octets', rfl⟩ := List.exists_cons_of_length_eq_add_one hlength.symm
      simp only [List.length_cons, Nat.add_right_cancel_iff] at hlength hshort ⊢
      have hrest := ih hlength (by omega) h
      have hsmall : 2 ^ (8 * octets.length) ≤ 2 ^ 24 :=
        Nat.pow_le_pow_right (by decide) (by omega)
      have hdifference := toNat_of_feed_lt (Nat.lt_of_lt_of_le hrest hsmall)
      have hshifted : (a ^^^ b ^^^ (octet.toUInt32 ^^^ octet'.toUInt32)).toNat <
          2 ^ (8 * (octets.length + 1)) := by
        rw [hdifference, Nat.mul_succ, Nat.pow_add, Nat.mul_comm]
        exact Nat.mul_lt_mul_of_pos_right hrest (by decide)
      have hoctets : (octet.toUInt32 ^^^ octet'.toUInt32).toNat < 2 ^ (8 * (octets.length + 1)) :=
        Nat.lt_of_lt_of_le (toNat_octets_xor_lt octet octet')
          (Nat.pow_le_pow_right (by decide) (by omega))
      have hboth : a ^^^ b = (a ^^^ b ^^^ (octet.toUInt32 ^^^ octet'.toUInt32)) ^^^
          (octet.toUInt32 ^^^ octet'.toUInt32) := by
        rw [UInt32.xor_assoc, UInt32.xor_self, UInt32.xor_zero]
      rw [hboth, UInt32.toNat_xor]
      exact Nat.xor_lt_two_pow hshifted hoctets

/-- Up to four octets are determined by what they make of a register. -/
theorem eq_of_feeds_eq {octets octets' : Octets} {register : UInt32}
    (hlength : octets.length = octets'.length) (hshort : octets.length ≤ 4)
    (h : octets.foldl feed register = octets'.foldl feed register) : octets = octets' := by
  induction octets generalizing octets' register with
  | nil => exact (List.length_eq_zero_iff.1 hlength.symm).symm
  | cons octet octets ih =>
      obtain ⟨octet', octets', rfl⟩ := List.exists_cons_of_length_eq_add_one hlength.symm
      simp only [List.length_cons, Nat.add_right_cancel_iff] at hlength hshort
      have hrest := toNat_xor_lt_of_feeds_eq hlength (by omega) h
      have hsmall : 2 ^ (8 * octets.length) ≤ 2 ^ 24 :=
        Nat.pow_le_pow_right (by decide) (by omega)
      have hdifference := toNat_of_feed_lt (Nat.lt_of_lt_of_le hrest hsmall)
      -- The difference is both a multiple of 256 and below it.
      have hbelow := toNat_octets_xor_lt octet octet'
      rw [UInt32.xor_self, UInt32.zero_xor] at hdifference
      have hzero : octet.toUInt32 ^^^ octet'.toUInt32 = 0 := by
        apply UInt32.toNat_inj.1
        rw [UInt32.toNat_zero]
        omega
      have hword : octet.toUInt32.toNat = octet'.toUInt32.toNat := by
        rw [UInt32.xor_eq_zero_iff.1 hzero]
      have hhead : octet = octet' := UInt8.toNat_inj.1 (by simpa using hword)
      subst hhead
      rw [ih hlength (by omega) h]

/-! ### Check values -/

/-- Checksums are told by their octets. -/
theorem checksum_eq_of_digest_eq {octets octets' : Octets} (h : digest octets = digest octets') :
    checksum octets = checksum octets' := by
  have hnumber := congrArg ofBigEndian h
  have hread : ∀ n : UInt32, ofBigEndian (bigEndian 4 n.toNat) = n.toNat := by
    intro n
    rw [ofBigEndian_bigEndian]
    exact Nat.mod_eq_of_lt n.toNat_lt
  rw [digest, digest, hread, hread] at hnumber
  exact UInt32.toNat_inj.1 hnumber

/-- Between the same octets, up to four octets are determined by the check value. -/
theorem eq_of_digest_eq {before octets octets' after : Octets}
    (hlength : octets.length = octets'.length) (hshort : octets.length ≤ 4)
    (h : digest (before ++ octets ++ after) = digest (before ++ octets' ++ after)) :
    octets = octets' := by
  have hchecksum := checksum_eq_of_digest_eq h
  simp only [checksum, List.foldl_append, UInt32.not_inj] at hchecksum
  exact eq_of_feeds_eq hlength hshort (feeds_injective after hchecksum)

end CcnxPacket.Crc32c
