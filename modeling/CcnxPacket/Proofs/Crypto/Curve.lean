import CcnxPacket.Proofs.Crypto.Group
import CcnxPacket.Proofs.Octets

/-!
# The points of a curve and their encodings

Of the numbers of a curve it is asked that they are proper ones (`Curve.IsProper`): then the base
point has the order of the group, and its multiples are read back from their compressed encodings.
-/

namespace CcnxPacket.Curve

open WeierstrassCurve.Affine

variable {curve : Curve}

/-- A base point that is on the curve, and not its own opposite, stands for one of the group. -/
theorem stands_base [Fact curve.prime.Prime] (htwo : curve.prime ≠ 2)
    (hcontains : curve.contains curve.baseX curve.baseY = true) (hy : curve.baseY ≠ 0) :
    ∃ G : curve.weierstrass.Point, Stands curve curve.base G ∧ G ≠ 0 := by
  obtain ⟨⟨hX, hY⟩, -⟩ : (curve.baseX < curve.prime ∧ curve.baseY < curve.prime) ∧ _ := by
    simpa [Curve.contains] using hcontains
  have hself : (curve.baseY : ZMod curve.prime) ≠
      curve.weierstrass.negY curve.baseX curve.baseY := by
    rw [ne_eq, eq_negY_iff htwo]
    intro hzero
    exact hy (eq_of_cast_eq hY (Nat.zero_lt_of_lt hY) (by rw [hzero, Nat.cast_zero]))
  have hnonsingular : curve.weierstrass.Nonsingular curve.baseX curve.baseY :=
    (nonsingular_iff _ _).2 ⟨(equation_iff_contains hX hY).2 hcontains, .inr hself⟩
  exact ⟨_, .affine hnonsingular hX hY rfl rfl, Point.some_ne_zero hnonsingular⟩

/-! ### Parameters -/

/-- The base point generates a group of prime order, and the field has the square roots and the
width that encodings take for granted. -/
structure IsProper (curve : Curve) : Prop where
  prime : curve.prime.Prime
  residue : curve.prime % 4 = 3
  order : curve.order.Prime
  contains : curve.contains curve.baseX curve.baseY = true
  baseY_ne_zero : curve.baseY ≠ 0
  cycle : curve.mul curve.order curve.base = .infinity
  prime_le : curve.prime ≤ 256 ^ curve.width
  order_le : curve.order ≤ 256 ^ curve.width

namespace IsProper

variable (h : curve.IsProper)
include h

/-- The prime is odd, since it is three modulo four. -/
theorem prime_ne_two : curve.prime ≠ 2 := by
  intro htwo
  have hresidue := h.residue
  rw [htwo] at hresidue
  cases hresidue

/-- The base point stands for one that has the order of the group. -/
theorem exists_base [Fact curve.prime.Prime] :
    ∃ G : curve.weierstrass.Point, Stands curve curve.base G ∧ addOrderOf G = curve.order := by
  obtain ⟨G, hG, hne⟩ := stands_base h.prime_ne_two h.contains h.baseY_ne_zero
  have hcycle := hG.mul h.prime_ne_two curve.order
  rw [h.cycle] at hcycle
  have : Fact curve.order.Prime := ⟨h.order⟩
  exact ⟨G, hG, addOrderOf_eq_prime hcycle.eq_zero hne⟩

/-! ### Encodings -/

/-- The root of a square is its base or the opposite of that. -/
theorem squareRoot?_rightSide [Fact curve.prime.Prime] {x y : Nat}
    (hcontains : curve.contains x y = true) :
    ∃ root < curve.prime, curve.squareRoot? (curve.rightSide x) = some root ∧
      ((root : ZMod curve.prime) = y ∨ (root : ZMod curve.prime) = -y) := by
  have hsquare : (curve.rightSide x : ZMod curve.prime) = (y : ZMod curve.prime) ^ 2 := by
    simp only [Curve.contains, Bool.and_eq_true, decide_eq_true_eq, beq_iff_eq] at hcontains
    rw [← hcontains.2, ZMod.natCast_mod, Nat.cast_mul, sq]
  let root := Modular.power curve.prime (curve.rightSide x) ((curve.prime + 1) / 4)
  -- The exponent is half of the one that the theorem of Fermat is about, and one half more.
  have hroot : (root : ZMod curve.prime) ^ 2 = (y : ZMod curve.prime) ^ 2 := by
    have hexponent : 2 * ((curve.prime + 1) / 4 * 2) = curve.prime + 1 := by
      have hresidue := h.residue
      omega
    rw [Modular.cast_power, hsquare, ← pow_mul, ← pow_mul, hexponent, pow_succ, ZMod.pow_card, sq]
  have hreduced : root < curve.prime := by
    rw [show root = _ from Modular.power_eq _ _ _]
    exact Nat.mod_lt _ h.prime.pos
  refine ⟨root, hreduced, ?_, sq_eq_sq_iff_eq_or_eq_neg.1 hroot⟩
  rw [squareRoot?, if_pos]
  rw [← ZMod.natCast_eq_natCast_iff', Nat.cast_mul, ← sq, hsquare]
  exact hroot

/-- Of a root and its opposite one has the parity of `y`, since the field's prime is odd. -/
theorem choose_parity [Fact curve.prime.Prime] {root y : Nat} (hroot : root < curve.prime)
    (hy : y < curve.prime)
    (hsign : (root : ZMod curve.prime) = y ∨ (root : ZMod curve.prime) = -y) :
    (if root % 2 = y % 2 then root else (curve.prime - root) % curve.prime) = y := by
  have hodd := h.prime.eq_two_or_odd.resolve_left h.prime_ne_two
  rcases hsign with hsame | hopposite
  · rw [eq_of_cast_eq hroot hy hsame, if_pos rfl]
  · rcases Nat.eq_zero_or_pos y with rfl | hpos
    · rw [Nat.cast_zero, neg_zero, ← Nat.cast_zero] at hopposite
      rw [eq_of_cast_eq hroot hy hopposite, if_pos rfl]
    · have hless : curve.prime - y < curve.prime := by omega
      have hcast : ((curve.prime - y : Nat) : ZMod curve.prime) = -y := by
        rw [Nat.cast_sub (Nat.le_of_lt hy), ZMod.natCast_self, zero_sub]
      rw [eq_of_cast_eq hroot hless (hopposite.trans hcast.symm), if_neg (by omega),
        Nat.sub_sub_self (Nat.le_of_lt hy), Nat.mod_eq_of_lt hy]

/-- A compressed point is read back: the tag tells which of the two roots is its `y`. -/
theorem decodePoint?_compress [Fact curve.prime.Prime] {x y : Nat} (hx : x < curve.prime)
    (hy : y < curve.prime) (hcontains : curve.contains x y = true) :
    curve.decodePoint? (curve.compress (.affine x y)) = some (.affine x y) := by
  obtain ⟨root, hroot, hsquare, hsign⟩ := h.squareRoot?_rightSide hcontains
  have hlength : (bigEndian curve.width x).length = curve.width := length_bigEndian _ _
  have hnumber : ofBigEndian ((bigEndian curve.width x).take curve.width) = x := by
    rw [List.take_of_length_le (Nat.le_of_eq hlength), ofBigEndian_bigEndian]
    exact Nat.mod_eq_of_lt (Nat.lt_of_lt_of_le hx h.prime_le)
  have htag : (UInt8.ofNat (2 + y % 2)).toNat % 2 = y % 2 := by
    rw [UInt8.toNat_ofNat']
    omega
  have htags : UInt8.ofNat (2 + y % 2) = 2 ∨ UInt8.ofNat (2 + y % 2) = 3 := by
    rcases Nat.mod_two_eq_zero_or_one y with hparity | hparity <;> simp [hparity]
  rw [compress, decodePoint?]
  simp only [hlength, if_true, if_pos htags, hnumber, htag]
  rw [liftX?, if_pos hx, hsquare, Option.map_some, h.choose_parity hroot hy hsign]

/-- Every multiple of the base point but zero is read back from its compressed encoding. -/
theorem decodePoint?_compress_mul {k : Nat} (hk : ¬curve.order ∣ k) :
    curve.decodePoint? (curve.compress (curve.mul k curve.base)) =
      some (curve.mul k curve.base) := by
  have : Fact curve.prime.Prime := ⟨h.prime⟩
  obtain ⟨G, hG, horder⟩ := h.exists_base
  have hmul := hG.mul h.prime_ne_two k
  rw [← horder, addOrderOf_dvd_iff_nsmul_eq_zero] at hk
  generalize curve.mul k curve.base = p at hmul
  generalize k • G = P at hmul hk
  cases hmul with
  | infinity => exact absurd rfl hk
  | affine hnonsingular hx hy hX hY =>
      subst hX hY
      exact h.decodePoint?_compress hx hy ((equation_iff_contains hx hy).1 hnonsingular.1)

end IsProper

end CcnxPacket.Curve
