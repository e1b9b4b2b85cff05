import CcnxPacket.Crypto.Modular
import Mathlib.FieldTheory.Finite.Basic

/-!
# Residues

The arithmetic of residues, read in the ring of integers modulo `m`: differences, powers by repeated
squaring, and inverses by Euclid's algorithm.
-/

namespace CcnxPacket.Modular

/-- Repeated squaring yields the power. -/
theorem power_eq (m base exponent : Nat) : power m base exponent = base ^ exponent % m := by
  -- The recursion of `power`: half the exponent for the square of the base.
  induction exponent using Nat.strongRecOn generalizing base with
  | ind exponent ih =>
      rw [power]
      split
      · next hzero => rw [hzero, Nat.pow_zero]
      · next hpos =>
          have hhalf : exponent / 2 < exponent := by omega
          have hroot : power m (base * base % m) (exponent / 2) =
              base ^ (2 * (exponent / 2)) % m := by
            rw [ih _ hhalf, ← Nat.pow_mod, ← Nat.pow_two, ← Nat.pow_mul]
          simp only [hroot]
          split
          · next hodd =>
              have hexponent : exponent = 2 * (exponent / 2) + 1 := by omega
              rw [Nat.mod_mul_mod, ← pow_succ, ← hexponent]
          · next heven =>
              have hexponent : exponent = 2 * (exponent / 2) := by omega
              rw [← hexponent]

/-- By Fermat's theorem, powers with an exponent of one more than a multiple of `p - 1` are the
numbers themselves. -/
theorem pow_modEq_self {p n k : Nat} (hprime : p.Prime) (hn : n = k * (p - 1) + 1) (x : Nat) :
    x ^ n ≡ x [MOD p] := by
  have : Fact p.Prime := ⟨hprime⟩
  rw [← ZMod.natCast_eq_natCast_iff, Nat.cast_pow]
  by_cases hx : (x : ZMod p) = 0
  · rw [hx, hn, zero_pow (Nat.succ_ne_zero _)]
  · rw [hn, pow_succ, Nat.mul_comm, pow_mul, ZMod.pow_card_sub_one_eq_one hx, one_pow, one_mul]

/-! ### In the ring -/

variable {m : Nat}

/-- Repeated squaring yields the power in the ring. -/
theorem cast_power (base exponent : Nat) :
    (power m base exponent : ZMod m) = (base : ZMod m) ^ exponent := by
  rw [power_eq, ZMod.natCast_mod, Nat.cast_pow]

theorem mod_eq_zero_iff {n : Nat} : n % m = 0 ↔ (n : ZMod m) = 0 := by
  rw [ZMod.natCast_eq_zero_iff, Nat.dvd_iff_mod_eq_zero]

theorem sub_lt [NeZero m] (a b : Nat) : sub m a b < m :=
  Nat.mod_lt _ (Nat.pos_of_ne_zero (NeZero.ne m))

/-- The difference of two numbers is the difference of their residues. -/
theorem cast_sub [NeZero m] (a b : Nat) : (sub m a b : ZMod m) = a - b := by
  have hless : b % m ≤ m := Nat.le_of_lt (Nat.mod_lt _ (Nat.pos_of_ne_zero (NeZero.ne m)))
  rw [sub, ZMod.natCast_mod, Nat.cast_add, Nat.cast_sub hless, ZMod.natCast_self,
    ZMod.natCast_mod, zero_sub, sub_eq_add_neg]

/-- A difference vanishes when the numbers have the same residue. -/
theorem sub_eq_zero_iff [NeZero m] {a b : Nat} : sub m a b = 0 ↔ (a : ZMod m) = b := by
  rw [← sub_eq_zero (a := (a : ZMod m)), ← cast_sub, ZMod.natCast_eq_zero_iff]
  exact ⟨fun h => h ▸ Nat.dvd_zero m, fun h => Nat.eq_zero_of_dvd_of_lt h (sub_lt a b)⟩

/-- The remainders of Euclid's algorithm stay the given multiples of the number to invert, and the
last of them is the greatest common divisor. -/
theorem cast_inverseFrom [NeZero m] {a : ZMod m} {r₀ r₁ t₀ t₁ : Nat} (h₀ : t₀ * a = r₀)
    (h₁ : t₁ * a = r₁) : inverseFrom m r₀ r₁ t₀ t₁ * a = (r₀.gcd r₁ : Nat) := by
  fun_induction inverseFrom m r₀ r₁ t₀ t₁ with
  | case1 r₀ t₀ t₁ => rw [Nat.gcd_zero_right, h₀]
  | case2 r₀ r₁ t₀ t₁ hpos ih =>
      rw [Nat.gcd_comm, Nat.gcd_rec, Nat.gcd_comm]
      apply ih h₁
      have hdivision : (r₀ : ZMod m) = r₁ * (r₀ / r₁ : Nat) + (r₀ % r₁ : Nat) := by
        rw [← Nat.cast_mul, ← Nat.cast_add, Nat.div_add_mod]
      rw [cast_sub, Nat.cast_mul, sub_mul, h₀, mul_assoc, h₁, hdivision]
      ring

/-- Euclid's algorithm inverts every residue of a prime but zero. -/
theorem cast_inverse [Fact m.Prime] {a : Nat} (h : (a : ZMod m) ≠ 0) :
    (inverse m a : ZMod m) = (a : ZMod m)⁻¹ := by
  have hcoprime : m.gcd (a % m) = 1 := by
    rw [← Nat.Coprime, Nat.Prime.coprime_iff_not_dvd Fact.out]
    rw [Nat.dvd_mod_iff (dvd_refl m), ← ZMod.natCast_eq_zero_iff]
    exact h
  have hproduct : (inverse m a : ZMod m) * a = (m.gcd (a % m) : Nat) := by
    apply cast_inverseFrom
    · rw [Nat.cast_zero, zero_mul, ZMod.natCast_self]
    · rw [ZMod.natCast_mod, ZMod.natCast_mod, Nat.cast_one, one_mul]
  rw [hcoprime, Nat.cast_one] at hproduct
  exact eq_inv_of_mul_eq_one_left hproduct

end CcnxPacket.Modular
