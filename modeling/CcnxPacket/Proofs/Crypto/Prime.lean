import CcnxPacket.Proofs.Crypto.Modular
import Mathlib.NumberTheory.LucasPrimality

/-!
# Certificates of primes

That a large number is a prime is shown by a residue of it that has the largest order there is,
which the primes that divide the order tell. These have certificates of their own, down to primes
that are small enough to be known.
-/

namespace CcnxPacket

/-- What shows that a number is a prime. -/
structure PrimeCertificate where
  number : Nat
  /-- A residue whose powers are all the residues but zero. -/
  generator : Nat
  /-- The primes whose powers are the factors of `number - 1`, with the exponents. -/
  factors : List (Nat × Nat)

namespace PrimeCertificate

/-- Whether the factors are known primes and no power of the generator is one before the last. -/
def isValid (known : List Nat) (c : PrimeCertificate) : Bool :=
  let order := c.number - 1
  1 < c.number && c.factors.all (fun f => known.contains f.1)
    && (c.factors.map fun f => f.1 ^ f.2).prod == order
    && Modular.power c.number c.generator order == 1
    && c.factors.all fun f => Modular.power c.number c.generator (order / f.1) != 1

/-- Whether the certificates are valid, each of them with the numbers in front of it. -/
def areValid (known : List Nat) : List PrimeCertificate → Bool
  | [] => true
  | c :: rest => c.isValid known && areValid (c.number :: known) rest

variable {known : List Nat}

/-- A power that is computed as one is one in the ring. -/
theorem power_eq_one_iff {m base exponent : Nat} (h : 1 < m) :
    Modular.power m base exponent = 1 ↔ (base : ZMod m) ^ exponent = 1 := by
  have hone : ((1 : Nat) : ZMod m) = 1 := Nat.cast_one
  rw [← hone, ← Nat.cast_pow, ZMod.natCast_eq_natCast_iff', Nat.mod_eq_of_lt h, Modular.power_eq]

/-- A valid certificate is about a prime. -/
theorem prime_of_isValid {c : PrimeCertificate} (hknown : ∀ q ∈ known, q.Prime)
    (h : c.isValid known = true) : c.number.Prime := by
  simp only [isValid, Bool.and_eq_true, decide_eq_true_eq, List.all_eq_true,
    List.contains_iff_mem, beq_iff_eq, bne_iff_ne] at h
  obtain ⟨⟨⟨⟨hone, hprimes⟩, hproduct⟩, hall⟩, hless⟩ := h
  apply lucas_primality c.number c.generator ((power_eq_one_iff hone).1 hall)
  intro q hq hdivides
  rw [← hproduct] at hdivides
  obtain ⟨_, hpower, hdivides⟩ := (Prime.dvd_prod_iff hq.prime).1 hdivides
  obtain ⟨f, hf, rfl⟩ := List.mem_map.1 hpower
  have hprime : f.1.Prime := hknown f.1 (hprimes f hf)
  have hfactor : q = f.1 := (Nat.prime_dvd_prime_iff_eq hq hprime).1 (hq.dvd_of_dvd_pow hdivides)
  rw [hfactor, ne_eq, ← power_eq_one_iff hone]
  exact hless f hf

/-- Valid certificates are about primes. -/
theorem prime_of_areValid {certificates : List PrimeCertificate} (hknown : ∀ q ∈ known, q.Prime)
    (h : areValid known certificates = true) : ∀ q ∈ certificates.map number, q.Prime := by
  induction certificates generalizing known with
  | nil => exact fun _ hq => nomatch hq
  | cons first rest ih =>
      rw [areValid, Bool.and_eq_true] at h
      have hfirst := prime_of_isValid hknown h.1
      exact List.forall_mem_cons.2 ⟨hfirst, ih (List.forall_mem_cons.2 ⟨hfirst, hknown⟩) h.2⟩

end PrimeCertificate

end CcnxPacket
