import CcnxPacket.Crypto.Curve
import CcnxPacket.Proofs.Crypto.Modular
import Mathlib.AlgebraicGeometry.EllipticCurve.Affine.Point
import Mathlib.Tactic.LinearCombination

/-!
# The group of a curve

Points with residues for their coordinates are the points of a Weierstrass curve over a prime field
(`Curve.Stands`), and so are weighted coordinates (`Curve.Weighs`). What is computed of them are the
sums and multiples in the group of that curve, so the formulas need not be looked at again.
-/

namespace CcnxPacket.Curve

open WeierstrassCurve.Affine

variable (curve : Curve)

/-- The curve over its field. -/
def weierstrass : WeierstrassCurve.Affine (ZMod curve.prime) :=
  { a₁ := 0, a₂ := 0, a₃ := 0, a₄ := curve.a, a₆ := curve.b }

/-- The point stands for a point of the group: its coordinates are the residues of that one's. -/
inductive Stands : CcnxPacket.Point → curve.weierstrass.Point → Prop where
  | infinity : Stands .infinity 0
  | affine {x y : Nat} {X Y : ZMod curve.prime} (h : curve.weierstrass.Nonsingular X Y)
      (hx : x < curve.prime) (hy : y < curve.prime) (hX : (x : ZMod curve.prime) = X)
      (hY : (y : ZMod curve.prime) = Y) : Stands (.affine x y) (.some X Y h)

/-- The weighted coordinates are those of a point of the group. -/
inductive Weighs : Weighted → curve.weierstrass.Point → Prop where
  | infinity {w : Weighted} (hz : (w.z : ZMod curve.prime) = 0) : Weighs w 0
  | affine {w : Weighted} {X Y : ZMod curve.prime} (h : curve.weierstrass.Nonsingular X Y)
      (hz : (w.z : ZMod curve.prime) ≠ 0) (hX : (w.x : ZMod curve.prime) = X * w.z ^ 2)
      (hY : (w.y : ZMod curve.prime) = Y * w.z ^ 3) : Weighs w (.some X Y h)

variable {curve} [Fact curve.prime.Prime]

/-! ### Coordinates -/

section
variable {x y : Nat} {X Y X₁ X₂ Y₁ l : ZMod curve.prime}

theorem negY_eq (X Y : ZMod curve.prime) : curve.weierstrass.negY X Y = -Y := by
  simp [weierstrass, negY]

theorem addX_eq (X₁ X₂ l : ZMod curve.prime) :
    curve.weierstrass.addX X₁ X₂ l = l ^ 2 - (X₁ + X₂) := by
  simp only [weierstrass, addX]
  ring

theorem addY_eq (X₁ X₂ Y₁ l : ZMod curve.prime) :
    curve.weierstrass.addY X₁ X₂ Y₁ l = l * (X₁ - (l ^ 2 - (X₁ + X₂))) - Y₁ := by
  rw [addY, negAddY, negY_eq, addX_eq]
  ring

/-- Where two is not zero, points that are their own opposites have zero for `Y`. -/
theorem eq_negY_iff (htwo : curve.prime ≠ 2) : Y = curve.weierstrass.negY X Y ↔ Y = 0 := by
  have hne : (2 : ZMod curve.prime) ≠ 0 := Ring.two_ne_zero (by rwa [ZMod.ringChar_zmod_n])
  rw [negY_eq, eq_neg_iff_add_eq_zero, ← two_mul, mul_eq_zero]
  exact or_iff_right hne

/-- The tangent at a point that is not its own opposite. -/
theorem slope_self (htwo : curve.prime ≠ 2) (hY : Y ≠ 0) :
    curve.weierstrass.slope X X Y Y * (2 * Y) = 3 * X ^ 2 + curve.a := by
  have hne : (2 : ZMod curve.prime) ≠ 0 := Ring.two_ne_zero (by rwa [ZMod.ringChar_zmod_n])
  rw [slope_of_Y_ne rfl (mt (eq_negY_iff htwo).1 hY), negY_eq, sub_neg_eq_add, ← two_mul,
    div_mul_cancel₀ _ (mul_ne_zero hne hY)]
  simp [weierstrass]

/-- The numbers of a point satisfy the equation just when their residues do. -/
theorem equation_iff_contains (hx : x < curve.prime) (hy : y < curve.prime) :
    curve.weierstrass.Equation x y ↔ curve.contains x y = true := by
  have hsquare : (y : ZMod curve.prime) ^ 2 = (y * y : Nat) := by
    rw [Nat.cast_mul, sq]
  have hcube : (x : ZMod curve.prime) ^ 3 + curve.a * x + curve.b =
      (x * x * x + curve.a * x + curve.b : Nat) := by
    push_cast
    ring
  rw [equation_iff]
  simp only [weierstrass, zero_mul, add_zero, hsquare, hcube]
  rw [ZMod.natCast_eq_natCast_iff']
  simp [contains, rightSide, hx, hy]

/-- A residue is told by its number below the modulus. -/
theorem eq_of_cast_eq (hx : x < curve.prime) (hy : y < curve.prime)
    (h : (x : ZMod curve.prime) = y) : x = y := by
  rwa [ZMod.natCast_eq_natCast_iff', Nat.mod_eq_of_lt hx, Nat.mod_eq_of_lt hy] at h

end

/-! ### Weighted coordinates -/

section
variable {w : Weighted} {x₀ y₀ : Nat} {X Y l : ZMod curve.prime}

/-- The coordinates of twice a point from the slope `l` at the point. -/
theorem cast_doubleWeighted (hX : (w.x : ZMod curve.prime) = X * w.z ^ 2)
    (hY : (w.y : ZMod curve.prime) = Y * w.z ^ 3) (hl : l * (2 * Y) = 3 * X ^ 2 + curve.a) :
    let twice := curve.doubleWeighted w
    (twice.z : ZMod curve.prime) = 2 * Y * w.z ^ 4 ∧
      (twice.x : ZMod curve.prime) = (l ^ 2 - (X + X)) * twice.z ^ 2 ∧
      (twice.y : ZMod curve.prime) = (l * (X - (l ^ 2 - (X + X))) - Y) * twice.z ^ 3 := by
  intro twice
  have hz : (twice.z : ZMod curve.prime) = 2 * Y * w.z ^ 4 := by
    simp only [twice, doubleWeighted, ZMod.natCast_mod, Nat.cast_mul, Nat.cast_ofNat, hY]
    ring
  -- Both coordinates are polynomials in the slope; `hl` rids them of its denominator.
  rw [hz]
  simp only [twice, doubleWeighted, Modular.cast_sub, ZMod.natCast_mod, Nat.cast_mul, Nat.cast_add,
    Nat.cast_ofNat, hX, hY]
  refine ⟨trivial, ?_, ?_⟩
  · linear_combination
      -(w.z : ZMod curve.prime) ^ 8 * (3 * X ^ 2 + curve.a + l * (2 * Y)) * hl
  · linear_combination
      (w.z : ZMod curve.prime) ^ 12 *
        ((3 * X ^ 2 + curve.a) ^ 2 + (3 * X ^ 2 + curve.a) * (l * (2 * Y)) + (l * (2 * Y)) ^ 2 -
          12 * X * Y ^ 2) * hl

/-- The coordinates of the sum with `(x₀, y₀)` from the slope `l` of both points. -/
theorem cast_addWeighted (hz : (w.z : ZMod curve.prime) ≠ 0)
    (hX : (w.x : ZMod curve.prime) = X * w.z ^ 2) (hY : (w.y : ZMod curve.prime) = Y * w.z ^ 3)
    (hne : X ≠ x₀) (hl : l * (X - x₀) = Y - y₀) :
    let sum := curve.addWeighted w x₀ y₀
    (sum.z : ZMod curve.prime) = (x₀ - X) * w.z ^ 3 ∧
      (sum.x : ZMod curve.prime) = (l ^ 2 - (X + x₀)) * sum.z ^ 2 ∧
      (sum.y : ZMod curve.prime) = (l * (X - (l ^ 2 - (X + x₀))) - Y) * sum.z ^ 3 := by
  intro sum
  have hfinite : ¬w.z % curve.prime = 0 := mt Modular.mod_eq_zero_iff.1 hz
  have hacross : ¬Modular.sub curve.prime (x₀ * (w.z * w.z % curve.prime)) w.x = 0 := by
    rw [Modular.sub_eq_zero_iff, Nat.cast_mul, ZMod.natCast_mod, Nat.cast_mul, ← sq, hX]
    exact fun h => hne (mul_right_cancel₀ (pow_ne_zero 2 hz) h).symm
  have hsum : (sum.z : ZMod curve.prime) = (x₀ - X) * w.z ^ 3 := by
    simp only [sum, addWeighted, if_neg hfinite, if_neg hacross, ZMod.natCast_mod, Nat.cast_mul,
      Modular.cast_sub, hX]
    ring
  rw [hsum]
  simp only [sum, addWeighted, if_neg hfinite, if_neg hacross, ZMod.natCast_mod, Nat.cast_mul,
    Modular.cast_sub, Nat.cast_add, Nat.cast_ofNat, hX, hY]
  refine ⟨trivial, ?_, ?_⟩
  · linear_combination
      -(w.z : ZMod curve.prime) ^ 6 * (Y - y₀ + l * (X - x₀)) * hl
  · linear_combination
      (w.z : ZMod curve.prime) ^ 9 *
        ((X - x₀) ^ 2 * (2 * X + x₀) - (Y - y₀) ^ 2 - (Y - y₀) * (l * (X - x₀)) -
          (l * (X - x₀)) ^ 2) * hl

end

namespace Weighs

variable {w : Weighted} {P Q : curve.weierstrass.Point} {x₀ y₀ : Nat}

/-- A point has itself and the weight one for coordinates. -/
theorem ofAffine (hq : Stands curve (.affine x₀ y₀) Q) :
    Weighs curve { x := x₀, y := y₀, z := 1 } Q := by
  cases hq with
  | affine h _ _ hX hY => exact affine h (by simp) (by simp [hX]) (by simp [hY])

/-- Doubling in weighted coordinates doubles the point. -/
theorem double (htwo : curve.prime ≠ 2) (hw : Weighs curve w P) :
    Weighs curve (curve.doubleWeighted w) (P + P) := by
  cases hw with
  | infinity hz =>
      rw [add_zero]
      apply infinity
      simp [doubleWeighted, hz]
  | @affine X Y h hz hX hY =>
      by_cases hzero : Y = 0
      · rw [Point.add_self_of_Y_eq ((eq_negY_iff htwo).2 hzero)]
        apply infinity
        simp [doubleWeighted, hY, hzero]
      · obtain ⟨hz', hX', hY'⟩ := cast_doubleWeighted hX hY (slope_self htwo hzero)
        have hne : (2 : ZMod curve.prime) ≠ 0 :=
          Ring.two_ne_zero (by rwa [ZMod.ringChar_zmod_n])
        rw [Point.add_self_of_Y_ne (mt (eq_negY_iff htwo).1 hzero)]
        apply affine
        · rw [hz']
          exact mul_ne_zero (mul_ne_zero hne hzero) (pow_ne_zero _ hz)
        · rwa [addX_eq]
        · rwa [addY_eq]

/-- Points with the same `x` are the same or opposite. -/
theorem add_of_eq (htwo : curve.prime ≠ 2) {X Y : ZMod curve.prime}
    {h : curve.weierstrass.Nonsingular X Y} {h₀ : curve.weierstrass.Nonsingular x₀ y₀}
    (hw : Weighs curve w (.some X Y h)) (hsameX : X = x₀) :
    Weighs curve (curve.addWeighted w x₀ y₀) (.some X Y h + .some _ _ h₀) := by
  cases hw with
  | affine h hz hX hY =>
      have hfinite : ¬w.z % curve.prime = 0 := mt Modular.mod_eq_zero_iff.1 hz
      have hacross : Modular.sub curve.prime (x₀ * (w.z * w.z % curve.prime)) w.x = 0 := by
        rw [Modular.sub_eq_zero_iff, Nat.cast_mul, ZMod.natCast_mod, Nat.cast_mul, ← sq, hX, hsameX]
      have hup : Modular.sub curve.prime (y₀ * (w.z * w.z % curve.prime) * w.z) w.y = 0 ↔
          Y = y₀ := by
        have hcast : ((y₀ * (w.z * w.z % curve.prime) * w.z : Nat) : ZMod curve.prime) =
            y₀ * w.z ^ 3 := by
          simp only [Nat.cast_mul, ZMod.natCast_mod]
          ring
        rw [Modular.sub_eq_zero_iff, hcast, hY, mul_left_inj' (pow_ne_zero 3 hz), eq_comm]
      simp only [addWeighted, if_neg hfinite, if_pos hacross, hup]
      split
      · next hsameY =>
          have hsame : Point.some X Y h = Point.some _ _ h₀ := by
            rw [Point.some.injEq]
            exact ⟨hsameX, hsameY⟩
          rw [← hsame]
          exact double htwo (affine h hz hX hY)
      · next hdistinct =>
          have hopposite := (Y_eq_of_X_eq h.1 h₀.1 hsameX).resolve_left hdistinct
          rw [Point.add_of_Y_eq hsameX hopposite]
          exact infinity Nat.cast_zero

/-- Points with different `x` are summed along the line through both. -/
theorem add_of_ne {X Y : ZMod curve.prime} {h : curve.weierstrass.Nonsingular X Y}
    {h₀ : curve.weierstrass.Nonsingular x₀ y₀} (hw : Weighs curve w (.some X Y h))
    (hne : X ≠ x₀) :
    Weighs curve (curve.addWeighted w x₀ y₀) (.some X Y h + .some _ _ h₀) := by
  cases hw with
  | affine h hz hX hY =>
      have hslope : curve.weierstrass.slope X x₀ Y y₀ * (X - x₀) = Y - y₀ := by
        rw [slope_of_X_ne hne, div_mul_cancel₀ _ (sub_ne_zero.2 hne)]
      obtain ⟨hz', hX', hY'⟩ := cast_addWeighted hz hX hY hne hslope
      rw [Point.add_of_X_ne hne]
      apply affine
      · rw [hz']
        exact mul_ne_zero (sub_ne_zero.2 hne.symm) (pow_ne_zero _ hz)
      · rwa [addX_eq]
      · rwa [addY_eq]

/-- Adding a point in weighted coordinates adds it in the group. -/
theorem add (htwo : curve.prime ≠ 2) (hw : Weighs curve w P)
    (hq : Stands curve (.affine x₀ y₀) Q) :
    Weighs curve (curve.addWeighted w x₀ y₀) (P + Q) := by
  cases hw with
  | infinity hz =>
      rw [zero_add, addWeighted, if_pos (Modular.mod_eq_zero_iff.2 hz)]
      exact ofAffine hq
  | @affine X Y h hz hX hY =>
      cases hq with
      | affine h₀ _ _ hX₀ hY₀ =>
          subst hX₀ hY₀
          by_cases hx : X = x₀
          · exact add_of_eq htwo (affine h hz hX hY) hx
          · exact add_of_ne (affine h hz hX hY) hx

/-- Doubling and adding makes the multiple. -/
theorem mul (htwo : curve.prime ≠ 2) (hq : Stands curve (.affine x₀ y₀) Q) (k : Nat) :
    Weighs curve (curve.mulWeighted k x₀ y₀) (k • Q) := by
  -- The recursion of `mulWeighted`: twice what half the factor makes.
  induction k using Nat.strongRecOn with
  | ind k ih =>
      rw [mulWeighted]
      split
      · next hzero =>
          rw [hzero, zero_nsmul]
          exact infinity Nat.cast_zero
      · next hpos =>
          have heven := double htwo (ih (k / 2) (by omega))
          rw [← add_nsmul] at heven
          simp only
          split
          · next hodd =>
              have hk : k • Q = (k / 2 + k / 2) • Q + Q := by
                rw [← succ_nsmul]
                congr 1
                omega
              rw [hk]
              exact add htwo heven hq
          · next hodd =>
              have hk : k / 2 + k / 2 = k := by omega
              rwa [hk] at heven

/-- Dividing by the weights yields the point. -/
theorem stands_ofWeighted (hw : Weighs curve w P) : Stands curve (curve.ofWeighted w) P := by
  rw [ofWeighted]
  cases hw with
  | infinity hz =>
      simp only [if_pos (Modular.mod_eq_zero_iff.2 hz)]
      exact .infinity
  | affine h hz hX hY =>
      have hpos : 0 < curve.prime := Nat.pos_of_ne_zero (NeZero.ne _)
      simp only [if_neg (mt Modular.mod_eq_zero_iff.1 hz)]
      apply Stands.affine h (Nat.mod_lt _ hpos) (Nat.mod_lt _ hpos)
      · simp only [ZMod.natCast_mod, Nat.cast_mul, Modular.cast_inverse hz, hX]
        field_simp
      · simp only [ZMod.natCast_mod, Nat.cast_mul, Modular.cast_inverse hz, hY]
        field_simp

end Weighs

/-! ### Points -/

namespace Stands

variable {p q : CcnxPacket.Point} {P Q : curve.weierstrass.Point}

/-- Points that stand for the same are the same. -/
theorem unique (hp : Stands curve p P) (hq : Stands curve q P) : p = q := by
  cases hp with
  | infinity =>
      cases hq
      rfl
  | affine h hx hy hX hY =>
      cases hq with
      | affine _ hx' hy' hX' hY' =>
          rw [eq_of_cast_eq hx hx' (hX.trans hX'.symm), eq_of_cast_eq hy hy' (hY.trans hY'.symm)]

omit [Fact curve.prime.Prime] in
/-- Only zero has no coordinates. -/
theorem eq_zero (h : Stands curve .infinity P) : P = 0 := by
  cases h
  rfl

/-- The sum of two points stands for their sum in the group. -/
theorem add (htwo : curve.prime ≠ 2) (hp : Stands curve p P) (hq : Stands curve q Q) :
    Stands curve (curve.add p q) (P + Q) := by
  cases p with
  | infinity =>
      rw [hp.eq_zero, zero_add]
      exact hq
  | affine x₁ y₁ =>
      cases q with
      | infinity =>
          rw [hq.eq_zero, add_zero]
          exact hp
      | affine x₂ y₂ => exact (Weighs.add htwo (.ofAffine hp) hq).stands_ofWeighted

/-- The multiple of a point stands for its multiple in the group. -/
theorem mul (htwo : curve.prime ≠ 2) (k : Nat) (hp : Stands curve p P) :
    Stands curve (curve.mul k p) (k • P) := by
  cases p with
  | infinity =>
      rw [hp.eq_zero, nsmul_zero]
      exact infinity
  | affine x y => exact (Weighs.mul htwo hp k).stands_ofWeighted

end Stands

end CcnxPacket.Curve
