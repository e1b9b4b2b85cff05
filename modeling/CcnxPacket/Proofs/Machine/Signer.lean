import CcnxPacket.Proofs.Signing

/-!
# Sizes of keys and signatures

What a signer adds to a message has to be in memory for the machine to count it. The suites fix the
sizes of identifiers and signatures, and of all public keys but those of RSA, whose sizes are
bounded as soon as the keys are acceptable.
-/

namespace CcnxPacket

/-- The octet strings that the signer makes are in memory, which holds none of half of the machine's
numbers. -/
structure Signer.InMemory (signer : Signer) : Prop where
  publicKey : ∀ key ∈ signer.publicKey?, key.length < 2 ^ 63
  signature : ∀ digest signature, signer.sign digest = .ok signature → signature.length < 2 ^ 63

/-! ### Keys -/

/-- A compressed point takes at most a coordinate and an octet. -/
theorem Curve.length_compress_le (curve : Curve) (point : Point) :
    (curve.compress point).length ≤ curve.width + 1 := by
  cases point with
  | infinity => exact Nat.succ_le_succ (Nat.zero_le _)
  | affine x y => rw [compress, List.length_cons, length_bigEndian]

/-- An acceptable key has a modulus of few octets. -/
theorem Rsa.PublicKey.size_le {key : PublicKey} (h : key.isAcceptable = true) :
    key.size ≤ maxOctets := by
  simp only [isAcceptable, Bool.and_eq_true, decide_eq_true_eq] at h
  have hbits : bitLength key.modulus ≤ 4096 := h.1.1.1.1.2
  rw [size, maxOctets]
  omega

/-- The encoding adds little to the numbers of a key. -/
theorem Rsa.PublicKey.length_encode_lt {key : PublicKey} (h : key.isAcceptable = true) :
    key.encode.length < Der.lengthLimit := by
  have hnumbers := length_numbers_lt h
  have hsequence := @Der.length_encode_le Der.sequenceTag key.numbers (by omega)
  have hbits : key.bits.length ≤ key.numbers.length + 7 := by
    rw [bits, List.length_cons]
    omega
  have hstring := @Der.length_encode_le Der.bitStringTag key.bits (by omega)
  have hidentifier : algorithmIdentifier.length = 15 := by decide
  have hinfo : (algorithmIdentifier ++ Der.encode Der.bitStringTag key.bits).length ≤
      key.numbers.length + 28 := by
    rw [List.length_append, hidentifier]
    omega
  rw [encode_eq]
  have hall := Der.length_encode_le Der.sequenceTag (Nat.lt_of_le_of_lt hinfo (by omega))
  omega

namespace Signer

/-- Encoded public keys are short. -/
theorem length_publicKey_lt {signer : Signer}
    (h : ∀ key, signer = .rsa key → key.publicKey.isAcceptable = true) {publicKey : Octets}
    (hkey : signer.publicKey? = some publicKey) : publicKey.length < Der.lengthLimit := by
  obtain ⟨scheme, key⟩ := signer
  cases scheme with
  | crc32c => cases hkey
  | hmacSha256 => cases hkey
  | rsaSha256 =>
      cases hkey
      exact Rsa.PublicKey.length_encode_lt (h key rfl)
  | ecSecp256k1 =>
      cases hkey
      exact Nat.lt_of_le_of_lt (Curve.length_compress_le _ _) (by decide)
  | ecSecp384r1 =>
      cases hkey
      exact Nat.lt_of_le_of_lt (Curve.length_compress_le _ _) (by decide)

end Signer

/-! ### Signatures -/

/-- A digest that passes has the size of the hash. -/
theorem HashFunction.length_of_checkDigest {hash : HashFunction} {suite : Suite}
    {digest : Octets} {checked : Unit} (h : hash.checkDigest suite digest = .ok checked) :
    digest.length = hash.size := by
  unfold checkDigest at h
  split at h
  · assumption
  · cases h

/-- A signature has the size of the modulus. -/
theorem Rsa.length_of_sign {key : KeyPair} {digest signature : Octets}
    (h : sign key digest = .ok signature) : signature.length = key.publicKey.size := by
  unfold sign at h
  split at h
  · cases h
  · cases h
    exact length_bigEndian _ _

/-- A signature takes the octets of two scalars. -/
theorem Ecdsa.length_of_sign {params : Parameters} {key : KeyPair params}
    {digest signature : Octets} (h : sign params key digest = .ok signature) :
    signature.length = params.curve.width + params.curve.width := by
  simp only [sign] at h
  split at h
  · cases h
  · cases h
    rw [signatureOctets, List.length_append, length_bigEndian, length_bigEndian]

namespace Signer

/-- No signature takes more octets than the greatest modulus. -/
theorem length_signature_le {signer : Signer}
    (h : ∀ key, signer = .rsa key → key.publicKey.isAcceptable = true) {digest signature : Octets}
    (hsign : signer.sign digest = .ok signature) : signature.length ≤ Rsa.maxOctets := by
  have hmade := scheme_sign_of_sign hsign
  obtain ⟨_, hdigest, -⟩ := Result.bind_eq_ok_iff.1 hsign
  obtain ⟨scheme, key⟩ := signer
  cases scheme with
  | crc32c =>
      have hsize : HashFunction.crc32c.size ≤ Rsa.maxOctets := by decide
      cases hmade
      rw [HashFunction.length_of_checkDigest hdigest]
      exact hsize
  | hmacSha256 =>
      cases hmade
      rw [HashFunction.mac, HashFunction.length_digest]
      decide
  | rsaSha256 =>
      rw [Rsa.length_of_sign hmade]
      exact Rsa.PublicKey.size_le (h key rfl)
  | ecSecp256k1 =>
      rw [Ecdsa.length_of_sign hmade]
      decide
  | ecSecp384r1 =>
      rw [Ecdsa.length_of_sign hmade]
      decide

/-- Of signers with an acceptable RSA key, and of those without an RSA key, nothing needs to be
assumed. -/
theorem inMemory_of_isAcceptable {signer : Signer}
    (h : ∀ key, signer = .rsa key → key.publicKey.isAcceptable = true) : signer.InMemory where
  publicKey _ hkey := Nat.lt_trans (length_publicKey_lt h hkey) (by decide)
  signature _ _ hsign := Nat.lt_of_le_of_lt (length_signature_le h hsign) (by decide)

end Signer

end CcnxPacket
