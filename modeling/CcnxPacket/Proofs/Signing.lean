import CcnxPacket.Proofs.Crypto.Ecdsa
import CcnxPacket.Proofs.Crypto.Parameters
import CcnxPacket.Proofs.Crypto.Rsa
import CcnxPacket.Proofs.RoundTrip
import CcnxPacket.Proofs.Verification.Verdict
import Mathlib.Tactic.NormNum.Prime

/-!
# Verifying what was signed

A message that a signer signs is read back with the signer's description, and a verifier of the
signer's suite that holds the signer's key accepts it, whatever other keys it holds. Of checksums
and shared secrets this needs no assumption. Of public key suites it needs that the encoding of the
public key is that of the key, and that this key accepts what the signing key signs
(`Signer.IsSound`), as is the case for every valid RSA key pair and for every elliptic curve scalar
that is no multiple of the order.
-/

namespace CcnxPacket

namespace Scheme

/-- No two schemes have the same suite. -/
theorem suite_injective : Function.Injective suite := by
  intro scheme other h
  cases scheme <;> cases other <;> first | rfl | cases h

/-- The key that checks what a signing key signs; checksums have none. -/
def verifyingKey? (scheme : Scheme) (key : scheme.SigningKey) : Option scheme.VerifyingKey :=
  match scheme, key with
  | crc32c, _ => none
  | hmacSha256, (secret : Secret) => some secret.octets
  | rsaSha256, (key : Rsa.KeyPair) => some key.publicKey
  | ecSecp256k1, (key : Ecdsa.KeyPair Ecdsa.secp256k1) => some key.point
  | ecSecp384r1, (key : Ecdsa.KeyPair Ecdsa.secp384r1) => some key.point

/-- An acceptable RSA key is read from its encoding. -/
theorem readKey_encode {key : Rsa.PublicKey} (h : key.isAcceptable = true) :
    readKey .rsaSha256 (.ofOctets .publicKey key.encode) = .ok key := by
  have hdecode := Rsa.PublicKey.decode?_encode h
  simp [readKey, readPublicKey, Key.ofOctets, hdecode]

/-- The public point of a scalar is read from its compressed encoding. -/
theorem readPublicKey_compress {params : Ecdsa.Parameters} {key : Ecdsa.KeyPair params}
    (h : params.curve.IsProper) (hscalar : ¬params.curve.order ∣ key.scalar) :
    readPublicKey (.ofOctets .publicKey key.publicKey) params.curve.decodePoint? =
      .ok key.point := by
  have hdecode := h.decodePoint?_compress_mul hscalar
  rw [← key.point_eq] at hdecode
  simp [readPublicKey, Key.ofOctets, Ecdsa.KeyPair.publicKey, hdecode]

end Scheme

namespace Signer

/-- The key that a verifier is given for the signatures: the secret, or the encoded public key. -/
def key? (signer : Signer) : Option Key :=
  match signer with
  | ⟨.hmacSha256, (secret : Secret)⟩ => some (.ofOctets .symmetric secret.octets)
  | signer => signer.publicKey?.map (.ofOctets .publicKey)

/-- The key that a verifier is given is read as the signer's own, and it accepts the signatures. -/
structure IsSound (signer : Signer) : Prop where
  decodes : ∀ key ∈ signer.key?, ∃ verifyingKey ∈ signer.scheme.verifyingKey? signer.key,
    signer.scheme.readKey key = .ok verifyingKey
  accepts : ∀ verifyingKey ∈ signer.scheme.verifyingKey? signer.key, ∀ digest signature,
    signer.sign digest = .ok signature →
      signer.scheme.accepts verifyingKey digest signature = true

theorem keyId?_eq (signer : Signer) : signer.keyId? = signer.key?.map Key.keyId := by
  obtain ⟨scheme, key⟩ := signer
  cases scheme <;> rfl

/-- Identifiers are digests. -/
theorem length_keyId {signer : Signer} {keyId : Octets} (h : signer.keyId? = some keyId) :
    keyId.length = 32 := by
  obtain ⟨scheme, key⟩ := signer
  cases scheme <;> cases h <;> exact Sha2.length_sha256 _

/-- What a signer signs is signed by its scheme. -/
theorem scheme_sign_of_sign {signer : Signer} {digest signature : Octets}
    (h : signer.sign digest = .ok signature) :
    signer.scheme.sign signer.key digest = .ok signature := by
  obtain ⟨_, _, hsign⟩ := Result.bind_eq_ok_iff.1 h
  cases hscheme : signer.scheme.sign signer.key digest with
  | error flaw =>
      rw [hscheme] at hsign
      cases hsign
  | ok made =>
      rw [hscheme] at hsign
      exact congrArg _ (Except.ok.inj hsign)

/-- Nothing needs to be assumed of checksums and shared secrets. -/
theorem isSound_of_kind_ne_publicKey {signer : Signer} (h : signer.suite.kind ≠ .publicKey) :
    signer.IsSound := by
  obtain ⟨scheme, key⟩ := signer
  cases scheme with
  | crc32c => exact ⟨fun key hkey => (by cases hkey), fun key hkey => (by cases hkey)⟩
  | hmacSha256 =>
      obtain ⟨secret, hsecret⟩ : Secret := key
      constructor
      · intro key hkey
        cases hkey
        refine ⟨secret, rfl, ?_⟩
        have hnonempty : secret.isEmpty = false := List.isEmpty_eq_false_iff.2 hsecret
        simp [Scheme.readKey, Key.ofOctets, hnonempty]
      · intro verifyingKey hkey digest signature hsign
        cases hkey
        cases scheme_sign_of_sign hsign
        simp [Scheme.accepts]
  | rsaSha256 => exact absurd rfl h
  | ecSecp256k1 => exact absurd rfl h
  | ecSecp384r1 => exact absurd rfl h

/-- An RSA signer is sound when its key pair is valid and its public key acceptable. -/
theorem isSound_rsa {key : Rsa.KeyPair} {primes : List Nat} (hvalid : key.IsValid primes)
    (hacceptable : key.publicKey.isAcceptable = true) : (rsa key).IsSound := by
  constructor
  · intro encoded hencoded
    cases hencoded
    exact ⟨key.publicKey, rfl, Scheme.readKey_encode hacceptable⟩
  · intro verifyingKey hkey digest signature hsign
    cases hkey
    exact Rsa.accepts_of_sign hvalid (scheme_sign_of_sign hsign)

/-- A signer on secp256k1 is sound unless its scalar leads to infinity. -/
theorem isSound_secp256k1 {scalar : Nat} (h : ¬Curve.secp256k1.order ∣ scalar) :
    (secp256k1 scalar).IsSound := by
  constructor
  · intro encoded hencoded
    cases hencoded
    exact ⟨_, rfl, Scheme.readPublicKey_compress Curve.isProper_secp256k1 h⟩
  · intro verifyingKey hkey digest signature hsign
    cases hkey
    exact Ecdsa.accepts_of_sign Curve.isProper_secp256k1 (scheme_sign_of_sign hsign)

/-- A signer on secp384r1 is sound unless its scalar leads to infinity. -/
theorem isSound_secp384r1 {scalar : Nat} (h : ¬Curve.secp384r1.order ∣ scalar) :
    (secp384r1 scalar).IsSound := by
  constructor
  · intro encoded hencoded
    cases hencoded
    exact ⟨_, rfl, Scheme.readPublicKey_compress Curve.isProper_secp384r1 h⟩
  · intro verifyingKey hkey digest signature hsign
    cases hkey
    exact Ecdsa.accepts_of_sign Curve.isProper_secp384r1 (scheme_sign_of_sign hsign)

/-- Only checksums come without a key. -/
theorem key?_eq_none_iff {signer : Signer} : signer.key? = none ↔ signer.scheme = .crc32c := by
  obtain ⟨scheme, key⟩ := signer
  cases scheme <;> simp [key?, publicKey?, Scheme.publicKey?]

end Signer

namespace Verifier

/-- The verifier holds the signer's key, as its scheme reads it, for the key's identifier. -/
def HoldsKeyOf (verifier : Verifier) (signer : Signer) : Prop :=
  ∀ key ∈ signer.key?, ∃ verifyingKey, verifier.scheme.readKey key = .ok verifyingKey ∧
    verifier.keys.get? key.keyId = some verifyingKey

/-- It is enough that the verifier finds the key that checks a sound signer's signatures. -/
theorem holdsKeyOf_of_get? {signer : Signer} {keys : KeyStore signer.scheme.VerifyingKey}
    (hsound : signer.IsSound)
    (hget : ∀ own ∈ signer.scheme.verifyingKey? signer.key, ∀ keyId ∈ signer.keyId?,
      keys.get? keyId = some own) : HoldsKeyOf ⟨signer.scheme, keys⟩ signer := by
  intro key hkey
  obtain ⟨own, hown, hread⟩ := hsound.decodes key hkey
  refine ⟨own, hread, hget own hown key.keyId ?_⟩
  rw [Signer.keyId?_eq]
  exact Option.mem_map_of_mem _ hkey

/-- Signer and verifier of one suite use one hash. -/
theorem hash_eq_of_suite_eq {verifier : Verifier} {signer : Signer}
    (h : verifier.suite = signer.suite) : verifier.hash = signer.hash :=
  congrArg Scheme.hash (Scheme.suite_injective h)

/-- What a signer signs is accepted, whatever other keys the verifier holds. -/
theorem accepts_of_sign {verifier : Verifier} {signer : Signer} {digest signature : Octets}
    (hsuite : verifier.suite = signer.suite) (hholds : verifier.HoldsKeyOf signer)
    (hsound : signer.IsSound) (hsign : signer.sign digest = .ok signature) :
    verifier.Accepts signer.keyId? digest signature := by
  obtain ⟨scheme, keys⟩ := verifier
  have hscheme : scheme = signer.scheme := Scheme.suite_injective hsuite
  subst hscheme
  cases hkey : signer.key? with
  | none =>
      have hchecksum := Signer.key?_eq_none_iff.1 hkey
      left
      refine ⟨hchecksum, ?_⟩
      obtain ⟨scheme, key⟩ := signer
      cases hchecksum
      exact (Except.ok.inj (Signer.scheme_sign_of_sign hsign)).symm
  | some key =>
      right
      obtain ⟨verifyingKey, hread, hget⟩ := hholds key hkey
      obtain ⟨ownKey, hown, hreadOwn⟩ := hsound.decodes key hkey
      have hsame : verifyingKey = ownKey := by
        rw [hread] at hreadOwn
        exact Except.ok.inj hreadOwn
      subst hsame
      refine ⟨verifyingKey, ?_, hsound.accepts verifyingKey hown digest signature hsign⟩
      rw [Signer.keyId?_eq, hkey]
      exact hget

end Verifier

namespace PacketCodec

variable {codec : PacketCodec} {now : UInt64} {message : Message} {signer : Signer}
  {octets : Octets}

/-- The description of the signatures that a codec writes. -/
def signedAlgorithm (codec : PacketCodec) (now : UInt64) (signer : Signer) :
    ValidationAlgorithm :=
  { suite := signer.suite
    keyId := signer.keyId?
    publicKey := if codec.embedPublicKey then signer.publicKey? else none
    signingTime := if codec.includeSigningTime then some now else none
    signature := none }

/-- A signer describes itself as the codec is to write it when the description can be made. -/
theorem validationAlgorithm_eq_ok_iff {alg : ValidationAlgorithm} :
    signer.validationAlgorithm codec.embedPublicKey
        (if codec.includeSigningTime then some now else none) = .ok alg ↔
      (codec.signedAlgorithm now signer).IsMade ∧ alg = codec.signedAlgorithm now signer := by
  rw [Signer.validationAlgorithm, ValidationAlgorithm.make_eq_ok_iff,
    ValidationAlgorithm.isMade_iff]
  rfl

/-- Protected are the element of the message and the section of the algorithm. -/
theorem protectedElements_eq_ok_iff {alg : ValidationAlgorithm} {covered : List Element} :
    codec.protectedElements message alg = .ok covered ↔
      ∃ e part, message.element codec.registry = .ok e ∧ codec.algorithmSection alg = .ok part ∧
        covered = [e, part] := by
  simp only [protectedElements, Element.before_eq_ok_iff]
  constructor
  · intro h
    obtain ⟨e, rest, he, ⟨part, last, hpart, hlast, rfl⟩, rfl⟩ := h
    cases hlast
    exact ⟨e, part, he, hpart, rfl⟩
  · intro h
    obtain ⟨e, part, he, hpart, rfl⟩ := h
    exact ⟨e, [part], he, ⟨part, [], hpart, rfl, rfl⟩, rfl⟩

/-- A signed message is its element, the section of the algorithm and the section of a signature of
the digest of both. -/
theorem encodeSigned_eq_ok_iff :
    codec.encodeSigned now message signer = .ok octets ↔
      (codec.signedAlgorithm now signer).IsMade ∧ octets.length ≤ codec.limit ∧
        ∃ e part signature payload,
          message.element codec.registry = .ok e ∧
          codec.algorithmSection (codec.signedAlgorithm now signer) = .ok part ∧
          signer.sign (signer.hash.digest (Element.concat [e, part])) = .ok signature ∧
          codec.signatureSection signature = .ok payload ∧
          octets = Element.concat [e, part, payload] := by
  simp only [encodeSigned, Signer.validationAlgorithm_maker, Result.bind_eq_ok_iff,
    validationAlgorithm_eq_ok_iff, toOctets_encodeSigning, Signer.hash_maker, Signer.sign_maker,
    withinLimit_eq_ok_iff, Result.pure_eq_ok, Except.ok.injEq]
  constructor
  · intro h
    obtain ⟨_, ⟨hmade, rfl⟩, _, ⟨covered, hcovered, signature, hsign, payload, hpayload, rfl⟩,
      hlimit, rfl⟩ := h
    obtain ⟨e, part, he, hpart, rfl⟩ := protectedElements_eq_ok_iff.1 hcovered
    exact ⟨hmade, hlimit, e, part, signature, payload, he, hpart, hsign, hpayload, rfl⟩
  · intro h
    obtain ⟨hmade, hlimit, e, part, signature, payload, he, hpart, hsign, hpayload, rfl⟩ := h
    have hcovered := protectedElements_eq_ok_iff.2 ⟨e, part, he, hpart, rfl⟩
    exact ⟨_, ⟨hmade, rfl⟩, _, ⟨_, hcovered, signature, hsign, payload, hpayload, rfl⟩,
      hlimit, rfl⟩

/-- What was signed is read back with the signer's description of it, and a verifier with the
signer's key accepts it. -/
theorem verify_of_encodeSigned {verifier : Verifier} (hassigned : message.IsAssigned)
    (hsuite : verifier.suite = signer.suite) (hholds : verifier.HoldsKeyOf signer)
    (hsound : signer.suite.kind = .publicKey → signer.IsSound)
    (h : codec.encodeSigned now message signer = .ok octets) :
    (∃ signature, codec.decode octets =
      .ok { body :=
              { message
                validation := some
                  { suite := signer.suite
                    keyId := signer.keyId?
                    publicKey := if codec.embedPublicKey then signer.publicKey? else none
                    signingTime := if codec.includeSigningTime then some now else none
                    signature := some signature } }
            protectedSize := octets.length - (Header.width + signature.length) }) ∧
      codec.verify octets verifier = .ok true := by
  obtain ⟨hmade, hlimit, e, part, signature, payload, he, hpart, hsign, hpayload, rfl⟩ :=
    encodeSigned_eq_ok_iff.1 h
  -- The section of the signature stands last, so its length tells where the covered octets end.
  have hlength : (Element.concat [e, part, payload]).length - (Header.width + signature.length) =
      (Element.concat [e, part]).length := by
    simp [size_of_signatureSection hpayload]
    omega
  have hdecode := decode_eq_ok_iff_spells.2
    ⟨hlimit, spellsBody_of_elements hassigned hmade he hpart hpayload⟩
  have hall : signer.IsSound := by
    by_cases hkind : signer.suite.kind = .publicKey
    · exact hsound hkind
    · exact Signer.isSound_of_kind_ne_publicKey hkind
  refine ⟨⟨signature, ?_⟩, ?_⟩
  · rw [hdecode, hlength]
    rfl
  · have hcovered : (Element.concat [e, part, payload]).take (Element.concat [e, part]).length =
        Element.concat [e, part] := by
      have hsplit : Element.concat [e, part, payload] =
          Element.concat [e, part] ++ Element.concat [payload] :=
        Element.concat_append [e, part] [payload]
      rw [hsplit]
      exact List.take_left
    have haccepts := Verifier.accepts_of_sign hsuite hholds hall hsign
    rw [← Verifier.hash_eq_of_suite_eq hsuite, ← hcovered] at haccepts
    have hvouches := (vouches_iff hdecode).2
      ⟨_, signature, rfl, rfl, hsuite.symm, haccepts⟩
    unfold verify
    rw [hdecode, Result.ok_bind]
    rcases verifyDecoded_of_decode verifier hdecode with ⟨hyes, _⟩ | ⟨_, hno⟩
    · exact hyes
    · exact absurd hvouches hno

/-- Primes whose product has just the room that padding needs. -/
def smallPrimes : List Nat :=
  [65521, 65519, 65497, 65479, 65449, 65447, 65437, 65423, 65419, 65413, 65407, 65393, 65381,
    65371, 65357, 65353, 65327, 65323, 65309, 65293, 65287, 65269, 65267, 65257, 65239, 65213,
    65203, 65183, 65179, 65173, 65171]

/-- The key pair of `smallPrimes` with the usual public exponent. -/
def smallKey : Rsa.KeyPair :=
  { publicKey := { modulus := smallPrimes.prod, exponent := KeyGeneration.publicExponent }
    privateExponent :=
      0x1B9891C7BDF765DA2238DFB32D71EAC442D12A339F7E8A0F38598E7D78344FE390C84D8E80B0FB9FE02F1 }

theorem isValid_smallKey : smallKey.IsValid smallPrimes where
  distinct := by decide +kernel
  prime := by
    simp only [smallPrimes, List.forall_mem_cons]
    norm_num
  modulus := rfl
  inverse := by
    have hproduct : ∀ p ∈ smallPrimes,
        smallKey.publicKey.exponent * smallKey.privateExponent =
          smallKey.publicKey.exponent * smallKey.privateExponent / (p - 1) * (p - 1) + 1 := by
      decide +kernel
    intro p hp
    exact ⟨_, hproduct p hp⟩

/-- The signer with a small secret. -/
def smallSecret : Signer := ⟨.hmacSha256, ⟨[1, 2, 3], by decide⟩⟩

/-- The signer with the scalar two. -/
def smallScalar : Signer := .secp256k1 2

/-- A verifier that holds another key before the one that a signer's key is checked with. -/
def behind (signer : Signer) (other own : signer.scheme.VerifyingKey) : Verifier :=
  { scheme := signer.scheme, keys := ⟨[([0], other), (signer.keyId?.getD [], own)]⟩ }

theorem holdsKeyOf_behind {other own : signer.scheme.VerifyingKey} (hsound : signer.IsSound)
    (hown : signer.scheme.verifyingKey? signer.key = some own) :
    (behind signer other own).HoldsKeyOf signer := by
  apply Verifier.holdsKeyOf_of_get? hsound
  intro found hfound keyId hkeyId
  cases hown.symm.trans hfound
  have hne : keyId ≠ [0] := by
    rintro rfl
    cases Signer.length_keyId hkeyId
  simp [KeyStore.get?, List.lookup_cons, beq_false_of_ne hne, Option.mem_def.1 hkeyId]

/-- A small Interest. -/
def restrictedInterest : Message :=
  .interest { name := ⟨[⟨.name, [97]⟩]⟩, hashRestriction := some 258 }

/-- What an RSA key, a secret and a scalar of secp256k1 sign is accepted by verifiers that hold
another key before theirs. -/
theorem verify_smallKeys :
    (∃ octets, encodeSigned { registry := .shared } 7 restrictedInterest (Signer.rsa smallKey) =
        .ok octets ∧
      verify { registry := .shared } octets
        (behind (.rsa smallKey) { modulus := 15, exponent := 3 } smallKey.publicKey) = .ok true) ∧
    (∃ octets, encodeSigned { registry := .shared } 7 restrictedInterest smallSecret = .ok octets ∧
      verify { registry := .shared } octets (behind smallSecret [1] [1, 2, 3]) = .ok true) ∧
    ∃ octets, encodeSigned { registry := .shared } 7 restrictedInterest smallScalar = .ok octets ∧
      verify { registry := .shared } octets
        (behind smallScalar Curve.secp256k1.base (Curve.secp256k1.mul 2 Curve.secp256k1.base)) =
          .ok true := by
  have hassigned : restrictedInterest.IsAssigned := by
    change Name.IsAssigned _
    decide
  have hverified : ∀ (signer : Signer) (other own : signer.scheme.VerifyingKey),
      signer.IsSound → signer.scheme.verifyingKey? signer.key = some own →
      (encodeSigned { registry := .shared } 7 restrictedInterest signer).isOk = true →
      ∃ octets, encodeSigned { registry := .shared } 7 restrictedInterest signer = .ok octets ∧
        verify { registry := .shared } octets (behind signer other own) = .ok true := by
    intro signer other own hsound hown hsigned
    cases hencode : encodeSigned { registry := .shared } 7 restrictedInterest signer with
    | error e =>
        rw [hencode] at hsigned
        cases hsigned
    | ok octets =>
        have hverify := verify_of_encodeSigned hassigned (rfl : (behind signer other own).suite = _)
          (holdsKeyOf_behind hsound hown) (fun _ => hsound) hencode
        exact ⟨octets, rfl, hverify.2⟩
  refine ⟨hverified _ _ _ ?_ rfl ?_, hverified _ _ _ ?_ rfl ?_, hverified _ _ _ ?_ rfl ?_⟩
  · exact Signer.isSound_rsa isValid_smallKey (by decide +kernel)
  · decide +kernel
  · exact Signer.isSound_of_kind_ne_publicKey (by decide)
  · decide +kernel
  · exact Signer.isSound_secp256k1 (by decide)
  · decide +kernel

end PacketCodec

end CcnxPacket
