import CcnxPacket.Crypto.Rsa
import CcnxPacket.Proofs.Crypto.Der
import CcnxPacket.Proofs.Crypto.Modular
import Mathlib.Data.Nat.ChineseRemainder

/-!
# RSA signatures are accepted

The two exponents of a valid key pair undo each other for every number below the modulus, so what is
signed with the private exponent is accepted under the public key. An acceptable public key is read
back from its encoding.
-/

namespace CcnxPacket

namespace Rsa

/-- The modulus is the product of the given primes, all of them different, and for each prime `p`
the product of the exponents is one more than a multiple of `p - 1`. -/
structure KeyPair.IsValid (key : KeyPair) (primes : List Nat) : Prop where
  distinct : primes.Nodup
  prime : ∀ p ∈ primes, p.Prime
  modulus : key.publicKey.modulus = primes.prod
  inverse : ∀ p ∈ primes, ∃ k,
    key.publicKey.exponent * key.privateExponent = k * (p - 1) + 1

/-- The public exponent undoes the private one. -/
theorem KeyPair.IsValid.power_power {key : KeyPair} {primes : List Nat} (h : key.IsValid primes)
    {x : Nat} (hx : x < key.publicKey.modulus) :
    Modular.power key.publicKey.modulus
      (Modular.power key.publicKey.modulus x key.privateExponent) key.publicKey.exponent = x := by
  have hcoprime : primes.Pairwise Nat.Coprime := by
    apply h.distinct.pairwise_of_forall_ne
    intro p hp q hq hne
    exact (Nat.coprime_primes (h.prime p hp) (h.prime q hq)).2 hne
  have hpower : x ^ (key.publicKey.exponent * key.privateExponent) ≡ x [MOD primes.prod] := by
    rw [Nat.modEq_list_prod_iff hcoprime]
    intro i
    have hmem := List.get_mem primes i
    obtain ⟨k, hk⟩ := h.inverse _ hmem
    exact Modular.pow_modEq_self (h.prime _ hmem) hk x
  rw [Modular.power_eq, Modular.power_eq, ← Nat.pow_mod, ← Nat.pow_mul, Nat.mul_comm]
  rw [← h.modulus] at hpower
  have hself := hpower
  rw [Nat.ModEq, Nat.mod_eq_of_lt hx] at hself
  exact hself

/-! ### Sizes -/

/-- A number is below the power of two that its bits allow. -/
theorem lt_two_pow_bitLength (n : Nat) : n < 2 ^ bitLength n := by
  unfold bitLength
  split
  · next hzero => simp [hzero]
  · exact Nat.lt_log2_self

/-- A modulus has no leading octet of zeros. -/
theorem PublicKey.bounds {key : PublicKey} (h : key.modulus ≠ 0) :
    256 ^ (key.size - 1) ≤ key.modulus ∧ key.modulus < 256 ^ key.size := by
  have hbits : bitLength key.modulus = key.modulus.log2 + 1 := if_neg h
  rw [pow_256, pow_256]
  constructor
  · have hlow : 8 * (key.size - 1) ≤ key.modulus.log2 := by
      rw [size, hbits]
      omega
    exact Nat.le_trans (Nat.pow_le_pow_right (by decide) hlow) (Nat.log2_self_le h)
  · have hhigh : bitLength key.modulus ≤ 8 * key.size := by
      rw [size]
      omega
    exact Nat.lt_of_lt_of_le (lt_two_pow_bitLength _) (Nat.pow_le_pow_right (by decide) hhigh)

/-- Padding fills the size, and its first octet is zero. -/
theorem pad?_eq_some {size : Nat} {digest padded : Octets} (h : pad? size digest = some padded) :
    padded.length = size ∧ ofBigEndian padded < 256 ^ (size - 1) := by
  unfold pad? at h
  simp only at h
  split at h
  · cases h
  · next hroom =>
      cases h
      have hlength : (1 :: List.replicate (size - (digestInfo ++ digest).length - 3) 0xFF ++
          0 :: (digestInfo ++ digest) : Octets).length = size - 1 := by
        simp only [List.length_append, List.length_cons, List.length_replicate] at *
        omega
      have hpos : 0 < size := by omega
      constructor
      · rw [List.cons_append, List.length_cons, hlength]
        omega
      · rw [List.cons_append, ofBigEndian_zero_cons, ← hlength]
        exact ofBigEndian_lt _

/-! ### Encodings of public keys -/

/-- The octets of the largest acceptable modulus. -/
def maxOctets : Nat := 512

/-- The numbers of an acceptable key fit into the largest modulus. -/
theorem PublicKey.lt_of_isAcceptable {key : PublicKey} (h : key.isAcceptable = true) :
    key.modulus < 256 ^ maxOctets ∧ key.exponent < 256 ^ maxOctets := by
  simp only [isAcceptable, Bool.and_eq_true, decide_eq_true_eq] at h
  obtain ⟨⟨⟨⟨⟨-, hbits⟩, -⟩, -⟩, -⟩, hless⟩ := h
  have hmodulus : key.modulus < 256 ^ maxOctets := by
    rw [pow_256]
    exact Nat.lt_of_lt_of_le (lt_two_pow_bitLength _) (Nat.pow_le_pow_right (by decide) hbits)
  exact ⟨hmodulus, Nat.lt_trans hless hmodulus⟩

/-- The two numbers of a key, one after the other. -/
def PublicKey.numbers (key : PublicKey) : Octets :=
  Der.encodeInteger key.modulus ++ Der.encodeInteger key.exponent

/-- The two numbers of an acceptable key are read back. -/
theorem readNumbers?_numbers {key : PublicKey} (h : key.isAcceptable = true) :
    readNumbers? key.numbers = some key := by
  obtain ⟨hmodulus, hexponent⟩ := key.lt_of_isAcceptable h
  have hlimit : maxOctets + 1 < Der.lengthLimit := by decide
  have hfirst := Nat.lt_of_le_of_lt (Der.length_integerContents_le hmodulus) hlimit
  have hsecond := Nat.lt_of_le_of_lt (Der.length_integerContents_le hexponent) hlimit
  have hlast := Der.readInteger?_encodeInteger hsecond []
  rw [List.append_nil] at hlast
  rw [readNumbers?, PublicKey.numbers, Der.readInteger?_encodeInteger hfirst]
  simp only [hlast]

/-- The numbers of an acceptable key are short enough to be encoded. -/
theorem PublicKey.length_numbers_lt {key : PublicKey} (h : key.isAcceptable = true) :
    key.numbers.length + 64 < Der.lengthLimit := by
  obtain ⟨hmodulus, hexponent⟩ := key.lt_of_isAcceptable h
  have hfirst := Der.length_encodeInteger_le hmodulus (by decide)
  have hsecond := Der.length_encodeInteger_le hexponent (by decide)
  have hlimit : 2 * (maxOctets + 7) + 64 < Der.lengthLimit := by decide
  rw [numbers, List.length_append]
  omega

/-- The string of bits in the encoding of a key. -/
def PublicKey.bits (key : PublicKey) : Octets := 0 :: Der.encode Der.sequenceTag key.numbers

theorem PublicKey.encode_eq (key : PublicKey) :
    key.encode = Der.encode Der.sequenceTag
      (algorithmIdentifier ++ Der.encode Der.bitStringTag key.bits) := rfl

/-- An acceptable key is read back from its encoding. -/
theorem PublicKey.decode?_encode {key : PublicKey} (h : key.isAcceptable = true) :
    decode? key.encode = some key := by
  have hlength := length_numbers_lt h
  have hnumbers : key.numbers.length < Der.lengthLimit := by omega
  have hsequence := Der.length_encode_le Der.sequenceTag hnumbers
  have hroom : key.bits.length + 32 < Der.lengthLimit := by
    rw [bits, List.length_cons]
    omega
  have hbits : key.bits.length < Der.lengthLimit := by omega
  have hstring := Der.length_encode_le Der.bitStringTag hbits
  have hidentifier : algorithmIdentifier.length = 15 := by decide
  have hinfo : (algorithmIdentifier ++ Der.encode Der.bitStringTag key.bits).length <
      Der.lengthLimit := by
    rw [List.length_append, hidentifier]
    omega
  have hrest : algorithmIdentifier.isPrefixOf?
      (algorithmIdentifier ++ Der.encode Der.bitStringTag key.bits) =
        some (Der.encode Der.bitStringTag key.bits) :=
    List.isPrefixOf?_eq_some_iff_append_eq.2 rfl
  have hreadBits := Der.readOnly?_encode Der.bitStringTag hbits
  have hreadNumbers := Der.readOnly?_encode Der.sequenceTag hnumbers
  rw [encode_eq, decode?, Der.readOnly?_encode _ hinfo]
  simp only [Option.bind_eq_bind, Option.bind_some, hrest, hreadBits]
  simp only [bits, hreadNumbers, Option.bind_some, readNumbers?_numbers h, h, if_true]

/-! ### Signatures -/

/-- What is signed with a valid key pair is accepted under its public key. -/
theorem accepts_of_sign {key : KeyPair} {primes : List Nat} (hvalid : key.IsValid primes)
    {digest signature : Octets} (h : sign key digest = .ok signature) :
    accepts key.publicKey digest signature = true := by
  have hmodulus : key.publicKey.modulus ≠ 0 := by
    rw [hvalid.modulus]
    exact List.prod_ne_zero fun hzero => Nat.not_prime_zero (hvalid.prime 0 hzero)
  obtain ⟨hlow, hhigh⟩ := PublicKey.bounds hmodulus
  unfold sign at h
  split at h
  · cases h
  · next padded hpadded =>
      cases h
      obtain ⟨hlength, hsmall⟩ := pad?_eq_some hpadded
      have hnumber : ofBigEndian padded < key.publicKey.modulus := Nat.lt_of_lt_of_le hsmall hlow
      have hsigned : Modular.power key.publicKey.modulus (ofBigEndian padded)
          key.privateExponent < key.publicKey.modulus := by
        rw [Modular.power_eq]
        exact Nat.mod_lt _ (Nat.pos_of_ne_zero hmodulus)
      have hread := ofBigEndian_bigEndian key.publicKey.size
        (Modular.power key.publicKey.modulus (ofBigEndian padded) key.privateExponent)
      rw [Nat.mod_eq_of_lt (Nat.lt_trans hsigned hhigh)] at hread
      unfold accepts
      simp only [hread]
      rw [if_pos ⟨length_bigEndian _ _, hsigned⟩, hvalid.power_power hnumber, hpadded, ← hlength,
        bigEndian_ofBigEndian]
      exact beq_self_eq_true _

end Rsa

end CcnxPacket
