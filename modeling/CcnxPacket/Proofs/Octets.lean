import CcnxPacket.Octets
import Mathlib.Algebra.Ring.Nat
import Mathlib.Data.List.Induction

/-!
# Numbers and their octets

Octets are read as the number that was written, as far as it fits the width, and written as the
octets that were read. Zeros in front do not change a number.
-/

namespace CcnxPacket

@[simp] theorem ofBigEndian_nil : ofBigEndian [] = 0 := rfl

@[simp] theorem ofBigEndian_append_singleton (octets : Octets) (octet : UInt8) :
    ofBigEndian (octets ++ [octet]) = ofBigEndian octets * 256 + octet.toNat := by
  simp [ofBigEndian]

/-- Octets make a number below the power of 256 that their count allows. -/
theorem ofBigEndian_lt (octets : Octets) : ofBigEndian octets < 256 ^ octets.length := by
  induction octets using List.reverseRecOn with
  | nil => simp
  | append_singleton octets octet ih =>
      have := octet.toNat_lt
      rw [ofBigEndian_append_singleton, List.length_append, List.length_singleton, Nat.pow_succ]
      omega

/-- Writing a number and reading it back keeps what fits the width. -/
theorem ofBigEndian_bigEndian (width n : Nat) :
    ofBigEndian (bigEndian width n) = n % 256 ^ width := by
  induction width generalizing n with
  | zero => simp [bigEndian, Nat.mod_one]
  | succ width ih =>
      rw [bigEndian, ofBigEndian_append_singleton, ih, Nat.pow_succ, Nat.mul_comm (256 ^ width),
        Nat.mod_mul, UInt8.toNat_ofNat']
      omega

/-- Octets are what is written of the number that they spell. -/
theorem bigEndian_ofBigEndian (octets : Octets) :
    bigEndian octets.length (ofBigEndian octets) = octets := by
  induction octets using List.reverseRecOn with
  | nil => rfl
  | append_singleton octets octet ih =>
      have hlt := octet.toNat_lt
      have hquotient : (ofBigEndian octets * 256 + octet.toNat) / 256 = ofBigEndian octets := by
        omega
      have hoctet : UInt8.ofNat (ofBigEndian octets * 256 + octet.toNat) = octet := by
        apply UInt8.toNat.inj
        rw [UInt8.toNat_ofNat']
        omega
      rw [List.length_append, List.length_singleton, ofBigEndian_append_singleton, bigEndian,
        hquotient, hoctet, ih]

theorem ofBigEndian_bigEndian_word64 (n : UInt64) :
    ofBigEndian (bigEndian 8 n.toNat) = n.toNat := by
  rw [ofBigEndian_bigEndian]
  exact Nat.mod_eq_of_lt n.toNat_lt

/-- An octet is eight bits. -/
theorem pow_256 (width : Nat) : 256 ^ width = 2 ^ (8 * width) := (Nat.pow_mul 2 8 width).symm

/-- A zero in front does not count. -/
theorem ofBigEndian_zero_cons (octets : Octets) :
    ofBigEndian (0 :: octets) = ofBigEndian octets := rfl

end CcnxPacket
