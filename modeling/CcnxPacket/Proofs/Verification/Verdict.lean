import CcnxPacket.Proofs.Spelling.Packet
import CcnxPacket.Proofs.Verification.Failure

/-!
# What verification answers

A verifier is asked about the octets before the element of the signature. It answers yes exactly
when the suite is its own and its scheme accepts the signature of their digest, under a key that it
holds for the identifier in the packet. Only octets that are no packet body make it fail.
-/

namespace CcnxPacket

/-- The store holds the key for the identifier, or for any if none is given. -/
def KeyStore.Holds {K : Type} (store : KeyStore K) : Option Octets → K → Prop
  | some keyId, key => store.get? keyId = some key
  | none, key => ∃ keyId, (keyId, key) ∈ store.entries

/-- The keys to try are those that the store holds for the identifier. -/
theorem KeyStore.mem_candidates_iff {K : Type} {store : KeyStore K} {keyId : Option Octets}
    {key : K} : key ∈ store.candidates keyId ↔ store.Holds keyId key := by
  cases keyId with
  | none => simp [candidates, Holds]
  | some keyId => simp [candidates, Holds]

namespace Verifier

/-- The signature is the digest itself, for checksums, or the scheme accepts it under a key that the
verifier holds. -/
def Accepts (verifier : Verifier) (keyId : Option Octets) (digest signature : Octets) : Prop :=
  (verifier.scheme = .crc32c ∧ signature = digest) ∨
    ∃ key, verifier.keys.Holds keyId key ∧ verifier.scheme.accepts key digest signature = true

/-- The octets end with the element of a signature in the verifier's suite, and the signature is
accepted for the digest of all octets before the element. -/
def Vouches (verifier : Verifier) (octets : Octets) (body : PacketBody) : Prop :=
  ∃ (alg : ValidationAlgorithm) (covered : Octets) (payload : Element),
    body.validation = some alg ∧ alg.suite = verifier.suite ∧
    octets = covered ++ payload.octets ∧ payload.type = TlvType.validationPayload ∧
    alg.signature = some payload.value ∧
    verifier.Accepts alg.keyId (verifier.hash.digest covered) payload.value

/-- A signature is accepted as a checksum, or under a key that the verifier holds. -/
theorem accepts_iff {verifier : Verifier} {keyId : Option Octets} {digest signature : Octets} :
    verifier.accepts keyId digest signature = true ↔ verifier.Accepts keyId digest signature := by
  obtain ⟨scheme, keys⟩ := verifier
  by_cases hscheme : scheme = .crc32c
  · subst hscheme
    have hnone : ¬∃ key : Scheme.VerifyingKey .crc32c, keys.Holds keyId key ∧
        Scheme.accepts .crc32c key digest signature = true := by
      intro h
      obtain ⟨key, -⟩ := h
      exact nomatch (key : Empty)
    simp [accepts, Accepts, hnone]
  · simp [accepts, Accepts, hscheme, List.any_eq_true, KeyStore.mem_candidates_iff]

/-- A digest of the verifier's own function is never refused for its length. -/
theorem verify_digest (verifier : Verifier) (keyId : Option Octets) (covered : Octets)
    (suite : Suite) (signature : Octets) :
    verifier.verify keyId (verifier.hash.digest covered) suite signature =
      .ok (decide (suite = verifier.suite) &&
        verifier.accepts keyId (verifier.hash.digest covered) signature) := by
  unfold verify
  split
  · next hsuite => simp [hsuite]
  · next hsuite =>
      rw [not_not] at hsuite
      have hcheck : verifier.hash.checkDigest suite (verifier.hash.digest covered) = .ok () :=
        if_pos (HashFunction.length_digest _ _)
      rw [hcheck]
      simp [hsuite]

end Verifier

namespace PacketCodec

variable {codec : PacketCodec} {octets : Octets} {decoded : DecodedBody} {verifier : Verifier}

/-- A signed body ends with the element of its signature, and what is covered comes before it. -/
theorem vouches_iff (h : codec.decode octets = .ok decoded) :
    verifier.Vouches octets decoded.body ↔
      ∃ alg signature, decoded.body.validation = some alg ∧ alg.signature = some signature ∧
        alg.suite = verifier.suite ∧
        verifier.Accepts alg.keyId (verifier.hash.digest (octets.take decoded.protectedSize))
          signature := by
  obtain ⟨-, hspells⟩ := decode_eq_ok_iff_spells.1 h
  cases hspells with
  | unsigned _ => simp [Verifier.Vouches]
  | @signed e part payload message alg signature _ _ hsigned =>
      obtain ⟨-, hvalue⟩ := Registry.spells_payload_iff.1 hsigned.spelled
      have hcovered : (e.octets ++ part.octets ++ payload.octets).take (e.size + part.size) =
          e.octets ++ part.octets := by
        apply List.take_left'
        simp
      rw [hcovered]
      constructor
      · intro hvouches
        obtain ⟨alg', covered, payload', halg, hsuite, hframing, htype, hsignature, haccepts⟩ :=
          hvouches
        cases halg
        -- The signature tells its element, and so the octets before it, in only one way.
        have hsame : payload' = payload := by
          apply Element.ext
          · rw [htype, hsigned.type]
          · rw [hvalue]
            exact (Option.some.inj hsignature).symm
        subst hsame
        rw [← List.append_cancel_right hframing] at haccepts
        exact ⟨_, _, rfl, hsignature, hsuite, haccepts⟩
      · intro haccepted
        obtain ⟨alg', signature', halg, hsignature, hsuite, haccepts⟩ := haccepted
        cases halg
        cases hsignature
        exact ⟨_, _, payload, rfl, hsuite, rfl, hsigned.type, by rw [hvalue]; rfl,
          by rwa [hvalue]⟩

/-- Once the octets are read, verification answers, and yes exactly when the verifier vouches. -/
theorem verifyDecoded_of_decode (verifier : Verifier) (h : codec.decode octets = .ok decoded) :
    (verifyDecoded octets decoded verifier = .ok true ∧
        verifier.Vouches octets decoded.body) ∨
      (verifyDecoded octets decoded verifier = .ok false ∧
        ¬verifier.Vouches octets decoded.body) := by
  rw [vouches_iff h]
  unfold verifyDecoded
  cases halg : decoded.body.validation with
  | none => simp
  | some alg =>
      cases hsignature : alg.signature with
      | none => simp [hsignature]
      | some signature =>
          simp only [hsignature, Verifier.check_checker, Verifier.hash_checker,
            Verifier.verify_digest]
          cases hverdict : decide (alg.suite = verifier.suite) && verifier.accepts alg.keyId
              (verifier.hash.digest (octets.take decoded.protectedSize)) signature with
          | true =>
              rw [Bool.and_eq_true, decide_eq_true_iff, Verifier.accepts_iff] at hverdict
              exact .inl ⟨rfl, alg, signature, rfl, hsignature, hverdict⟩
          | false =>
              refine .inr ⟨rfl, ?_⟩
              intro haccepted
              obtain ⟨alg', signature', halg', hsignature', hsuite, haccepts⟩ := haccepted
              cases halg'
              rw [hsignature] at hsignature'
              cases hsignature'
              rw [← Verifier.accepts_iff] at haccepts
              simp [hsuite, haccepts] at hverdict

/-- Verification fails exactly as reading does, and never for a digest or a key. Of what is read it
answers yes exactly when the verifier vouches for it, and no in every other case. -/
theorem verify_verdict (codec : PacketCodec) (octets : Octets) (verifier : Verifier) :
    (∀ e, codec.verify octets verifier = .error e ↔ codec.decode octets = .error e) ∧
    (∀ suite expected actual,
      codec.verify octets verifier ≠ .error (.invalidDigestLength suite expected actual)) ∧
    (∀ flaw, codec.verify octets verifier ≠ .error (.invalidKey flaw)) ∧
    (codec.verify octets verifier = .ok true ↔
      ∃ decoded, codec.decode octets = .ok decoded ∧ verifier.Vouches octets decoded.body) ∧
    (codec.verify octets verifier = .ok false ↔
      ∃ decoded, codec.decode octets = .ok decoded ∧ ¬verifier.Vouches octets decoded.body) := by
  have hreading := codec.failsReading_decode octets
  unfold verify
  cases hdecode : codec.decode octets with
  | error e =>
      -- Failures of reading are neither about digests nor about keys.
      have hkind := hreading e hdecode
      rw [Result.error_bind]
      refine ⟨fun _ => by simp, ?_, ?_, ?_, ?_⟩
      · intro suite expected actual h
        cases h
        exact hkind
      · intro flaw h
        cases h
        exact hkind
      · simp
      · simp
  | ok decoded =>
      rw [Result.ok_bind]
      simp only [Except.ok.injEq, exists_eq_left']
      rcases verifyDecoded_of_decode verifier hdecode with ⟨h, hvouches⟩ | ⟨h, hnot⟩
      · simp [h, hvouches]
      · simp [h, hnot]

end PacketCodec

end CcnxPacket
