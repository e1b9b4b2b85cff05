import CcnxPacket.Crypto.Ecdsa
import CcnxPacket.Proofs.Crypto.Curve

/-!
# ECDSA signatures are accepted

The numbers of a signature are such that the point which the verifier computes is the one of the
nonce or, where the smaller `s` was taken, its opposite. Both have the same `x`, so what is signed
with a private scalar is accepted under its public point.
-/

namespace CcnxPacket.Ecdsa

section
variable {curve : Curve} {r s : Nat}

/-- Numbers between zero and the order are read back from a signature. -/
theorem readSignature_signatureOctets (h : curve.IsProper) (hr : 0 < r) (hr' : r < curve.order)
    (hs : 0 < s) (hs' : s < curve.order) :
    readSignature curve (signatureOctets curve r s) = some (r, s) := by
  have hnumber : ∀ n < curve.order, ofBigEndian (bigEndian curve.width n) = n := by
    intro n hn
    rw [ofBigEndian_bigEndian]
    exact Nat.mod_eq_of_lt (Nat.lt_of_lt_of_le hn h.order_le)
  have hlength : ∀ n, (bigEndian curve.width n).length = curve.width :=
    fun n => length_bigEndian _ _
  rw [readSignature, signatureOctets, List.take_left' (hlength r), List.drop_left' (hlength r),
    hnumber r hr', hnumber s hs']
  simp only [List.length_append, hlength]
  exact if_pos ⟨by omega, hr, hr', hs, hs'⟩

theorem residueX_lt (h : 0 < curve.order) (p : Point) : residueX curve p < curve.order := by
  cases p with
  | infinity => exact h
  | affine x y => exact Nat.mod_lt x h

/-- A point and its opposite have the same `x`. -/
theorem residueX_eq [Fact curve.prime.Prime] {p q : Point} {P Q : curve.weierstrass.Point}
    (hp : curve.Stands p P) (hq : curve.Stands q Q) (h : P = Q ∨ P = -Q) :
    residueX curve p = residueX curve q := by
  rcases h with rfl | rfl
  · rw [hp.unique hq]
  · cases hq with
    | infinity =>
        rw [neg_zero] at hp
        rw [hp.unique .infinity]
    | affine h hx hy hX hY =>
        rw [WeierstrassCurve.Affine.Point.neg_some] at hp
        cases hp with
        | affine _ hx' _ hX' _ =>
            rw [residueX, residueX, Curve.eq_of_cast_eq hx' hx (hX'.trans hX.symm)]

end

/-- The factors that a verifier computes of `s` or of its opposite combine to the nonce or to its
opposite. -/
theorem combine_eq {n e r d k s : Nat} [Fact n.Prime] (hk : (k : ZMod n) ≠ 0)
    (hs : (s : ZMod n) ≠ 0)
    (hsign : (s : ZMod n) = (k : ZMod n)⁻¹ * (e + r * d) ∨
      (s : ZMod n) = -((k : ZMod n)⁻¹ * (e + r * d))) :
    let w := Modular.inverse n s
    ((e * w % n + d * (r * w % n) : Nat) : ZMod n) = k ∨
      ((e * w % n + d * (r * w % n) : Nat) : ZMod n) = -k := by
  intro w
  have hsum : ((e * w % n + d * (r * w % n) : Nat) : ZMod n) = (e + r * d) * (s : ZMod n)⁻¹ := by
    push_cast
    rw [ZMod.natCast_mod, ZMod.natCast_mod, Nat.cast_mul, Nat.cast_mul, Modular.cast_inverse hs]
    ring
  rw [hsum, mul_inv_eq_iff_eq_mul₀ hs, mul_inv_eq_iff_eq_mul₀ hs]
  rcases hsign with hsame | hopposite
  · left
    rw [hsame, mul_inv_cancel_left₀ hk]
  · right
    rw [hopposite, neg_mul_neg, mul_inv_cancel_left₀ hk]

/-- The smaller of the two values that `s` can take passes as such, and it is one of them. -/
theorem lowered_spec {n s : Nat} (low : Bool) (hpos : 0 < s) (hless : s < n) :
    let lowered := if low ∧ n / 2 < s then n - s else s
    0 < lowered ∧ lowered < n ∧ ¬(low ∧ n / 2 < lowered) ∧ (lowered = s ∨ lowered = n - s) := by
  intro lowered
  by_cases hlow : low ∧ n / 2 < s
  · have hlowered : lowered = n - s := if_pos hlow
    rw [hlowered]
    exact ⟨by omega, by omega, fun h => by omega, .inr rfl⟩
  · have hlowered : lowered = s := if_neg hlow
    rw [hlowered]
    exact ⟨hpos, hless, hlow, .inl rfl⟩

/-- Factors that are the same or opposite modulo the order of an element multiply it to the same or
to opposite elements. -/
theorem nsmul_eq_or_eq_neg {A : Type} [AddGroup A] {G : A} {m n k : Nat} (horder : addOrderOf G = n)
    (h : (m : ZMod n) = k ∨ (m : ZMod n) = -k) : m • G = k • G ∨ m • G = -(k • G) := by
  subst horder
  rcases h with hsame | hopposite
  · left
    exact nsmul_eq_nsmul_iff_modEq.2 ((ZMod.natCast_eq_natCast_iff _ _ _).1 hsame)
  · right
    rw [eq_neg_iff_add_eq_zero, ← add_nsmul, ← addOrderOf_dvd_iff_nsmul_eq_zero,
      ← ZMod.natCast_eq_zero_iff, Nat.cast_add, hopposite, neg_add_cancel]

section
variable {params : Parameters} {key : KeyPair params} {digest : Octets} {k r s : Nat}

/-- A nonce that is a multiple of the order would lead to infinity, which has no `x`. -/
theorem cast_nonce_ne_zero (h : params.curve.IsProper)
    (hr : residueX params.curve (params.curve.mul k params.curve.base) ≠ 0) :
    (k : ZMod params.curve.order) ≠ 0 := by
  have : Fact params.curve.prime.Prime := ⟨h.prime⟩
  obtain ⟨G, hG, horder⟩ := h.exists_base
  have hnonce := hG.mul h.prime_ne_two k
  intro hk
  rw [ZMod.natCast_eq_zero_iff, ← horder, addOrderOf_dvd_iff_nsmul_eq_zero] at hk
  rw [hk] at hnonce
  rw [hnonce.unique .infinity] at hr
  exact hr rfl

/-- The public point accepts the `x` of a nonce with an `s` that belongs to the digest, or with the
opposite of one. -/
theorem accepts_signatureOctets (h : params.curve.IsProper)
    (hr : residueX params.curve (params.curve.mul k params.curve.base) = r) (hrpos : 0 < r)
    (hspos : 0 < s) (hless : s < params.curve.order)
    (hlow : ¬(params.lowS ∧ params.curve.order / 2 < s))
    (hs : (s : ZMod params.curve.order) =
        (k : ZMod params.curve.order)⁻¹ * (ofBigEndian digest + r * key.scalar) ∨
      (s : ZMod params.curve.order) =
        -((k : ZMod params.curve.order)⁻¹ * (ofBigEndian digest + r * key.scalar))) :
    accepts params key.point digest (signatureOctets params.curve r s) = true := by
  have : Fact params.curve.prime.Prime := ⟨h.prime⟩
  have : Fact params.curve.order.Prime := ⟨h.order⟩
  have hrless : r < params.curve.order := hr ▸ residueX_lt h.order.pos _
  have hk := cast_nonce_ne_zero h (hr ▸ Nat.ne_of_gt hrpos)
  have hcast : (s : ZMod params.curve.order) ≠ 0 := by
    rw [ne_eq, ZMod.natCast_eq_zero_iff]
    exact Nat.not_dvd_of_pos_of_lt hspos hless
  obtain ⟨G, hG, horder⟩ := h.exists_base
  have hpoint := hG.mul h.prime_ne_two key.scalar
  rw [← key.point_eq] at hpoint
  -- The public point is a multiple of the base point, and so is all that the verifier adds up.
  have hsum : ∀ u₁ u₂, params.curve.Stands
      (params.curve.add (params.curve.mul u₁ params.curve.base) (params.curve.mul u₂ key.point))
      ((u₁ + key.scalar * u₂) • G) := by
    intro u₁ u₂
    rw [add_nsmul, mul_nsmul]
    exact (hG.mul h.prime_ne_two u₁).add h.prime_ne_two (hpoint.mul h.prime_ne_two u₂)
  unfold accepts
  simp only [readSignature_signatureOctets h hrpos hrless hspos hless]
  rw [if_neg hlow, beq_iff_eq]
  have hmultiple := nsmul_eq_or_eq_neg horder (combine_eq hk hcast hs)
  rw [residueX_eq (hsum _ _) (hG.mul h.prime_ne_two k) hmultiple, hr]

/-- What is signed with a private scalar is accepted under its public point. -/
theorem accepts_of_sign (h : params.curve.IsProper) {signature : Octets}
    (hsign : sign params key digest = .ok signature) :
    accepts params key.point digest signature = true := by
  have : Fact params.curve.order.Prime := ⟨h.order⟩
  unfold sign at hsign
  simp only at hsign
  -- The nonce may be any number: what follows holds of each that leads to a signature.
  generalize nonce params key.scalar digest = k at hsign
  generalize hr : residueX params.curve (params.curve.mul k params.curve.base) = r at hsign
  generalize hs : Modular.inverse params.curve.order k *
    (ofBigEndian digest + r * key.scalar) % params.curve.order = s at hsign
  split at hsign
  · cases hsign
  · next hnonzero =>
      cases hsign
      obtain ⟨hrzero, hszero⟩ := not_or.1 hnonzero
      have hless : s < params.curve.order := hs ▸ Nat.mod_lt _ h.order.pos
      have hvalue : (s : ZMod params.curve.order) =
          (k : ZMod params.curve.order)⁻¹ * (ofBigEndian digest + r * key.scalar) := by
        rw [← hs, ZMod.natCast_mod, Nat.cast_mul,
          Modular.cast_inverse (cast_nonce_ne_zero h (hr ▸ hrzero))]
        push_cast
        rfl
      obtain ⟨hpos, hlowered, hlow, hchoice⟩ :=
        lowered_spec params.lowS (Nat.pos_of_ne_zero hszero) hless
      apply accepts_signatureOctets h hr (Nat.pos_of_ne_zero hrzero) hpos hlowered hlow
      rcases hchoice with hsame | hopposite
      · left
        rw [hsame, hvalue]
      · right
        rw [hopposite, Nat.cast_sub (Nat.le_of_lt hless), ZMod.natCast_self, zero_sub, hvalue]

end

end CcnxPacket.Ecdsa
