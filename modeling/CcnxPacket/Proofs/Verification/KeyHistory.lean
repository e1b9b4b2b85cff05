import CcnxPacket.Proofs.Verification.Verdict
import Mathlib.Data.List.Nodup

/-!
# What a verifier remembers of the keys it was given

Keys are given to a verifier one after the other. A key that does not suit its scheme is refused,
and one whose identifier is taken is passed over, so what a verifier answers is determined by the
first suitable key of each identifier. Neither the order among different identifiers counts nor the
order in which the verifier's map happens to list them.
-/

namespace CcnxPacket

namespace Scheme

variable {scheme : Scheme} {history : List Key} {key : Key} {keyId : Octets}

/-- The key is of the kind that the scheme checks with, and its octets encode such a key. -/
def Suits (scheme : Scheme) (key : Key) : Prop :=
  match scheme with
  | crc32c => False
  | hmacSha256 => key.kind = .symmetric ∧ key.octets ≠ []
  | rsaSha256 => key.kind = .publicKey ∧ (Rsa.PublicKey.decode? key.octets).isSome
  | ecSecp256k1 => key.kind = .publicKey ∧ (Curve.secp256k1.decodePoint? key.octets).isSome
  | ecSecp384r1 => key.kind = .publicKey ∧ (Curve.secp384r1.decodePoint? key.octets).isSome

/-- Of the keys with the identifier, the first that suits the scheme, as the scheme reads it. -/
def firstKey? (scheme : Scheme) (history : List Key) (keyId : Octets) :
    Option scheme.VerifyingKey :=
  (history.filter fun key => key.keyId = keyId).findSome? fun key => (scheme.readKey key).toOption

/-- A public key is read when it is of the public kind and decodes. -/
theorem exists_readPublicKey_iff {K : Type} {decode? : Octets → Option K} :
    (∃ verifyingKey, readPublicKey key decode? = .ok verifyingKey) ↔
      key.kind = .publicKey ∧ (decode? key.octets).isSome := by
  unfold readPublicKey
  split
  · next hkind => cases decode? key.octets <;> simp [hkind]
  · next hkind => simp [hkind]

/-- The suitable keys are those that the scheme reads. -/
theorem suits_iff : scheme.Suits key ↔ ∃ verifyingKey, scheme.readKey key = .ok verifyingKey := by
  cases scheme with
  | crc32c => simp [Suits, readKey]
  | hmacSha256 =>
      unfold readKey
      split
      · next hkind =>
          split
          · next hempty => simpa [Suits, hkind] using hempty
          · next hsecret => exact iff_of_true ⟨hkind, by simpa using hsecret⟩ ⟨_, rfl⟩
      · next hkind => simp [Suits, hkind]
  | rsaSha256 => exact exists_readPublicKey_iff.symm
  | ecSecp256k1 => exact exists_readPublicKey_iff.symm
  | ecSecp384r1 => exact exists_readPublicKey_iff.symm

/-- A key is read just when it suits the scheme. -/
theorem isSome_toOption_readKey :
    (scheme.readKey key).toOption.isSome = true ↔ scheme.Suits key := by
  rw [suits_iff]
  cases scheme.readKey key <;> simp [Except.toOption]

/-- One more key counts only if it has the identifier and no key before it counts. -/
theorem firstKey?_concat :
    scheme.firstKey? (history ++ [key]) keyId =
      (scheme.firstKey? history keyId).or
        (if key.keyId = keyId then (scheme.readKey key).toOption else none) := by
  rw [firstKey?, List.filter_append, List.findSome?_append, firstKey?]
  congr 1
  by_cases h : key.keyId = keyId
  · simp [h]
  · simp [h]

end Scheme

/-- Where identifiers are distinct, each entry is the one that is found. -/
theorem KeyStore.get?_eq_some_iff {K : Type} {store : KeyStore K}
    (h : (store.entries.map Prod.fst).Nodup) {keyId : Octets} {key : K} :
    store.get? keyId = some key ↔ (keyId, key) ∈ store.entries := by
  obtain ⟨entries⟩ := store
  unfold get?
  induction entries with
  | nil => simp
  | cons entry entries ih =>
      obtain ⟨first, held⟩ := entry
      obtain ⟨hfresh, hrest⟩ := List.nodup_cons.1 h
      rw [List.lookup_cons, List.mem_cons, Prod.mk.injEq]
      by_cases hsame : keyId = first
      · subst hsame
        have hnot : (keyId, key) ∉ entries := fun hmem => hfresh (List.mem_map.2 ⟨_, hmem, rfl⟩)
        simp [hnot, eq_comm]
      · rw [beq_false_of_ne hsame]
        simp only [hsame, false_and, false_or]
        exact ih hrest

/-! ### Calls -/

namespace Verifier

variable {verifier : Verifier} {history : List Key} {key : Key}

/-- The answer to a call that adds a key, and the verifier after it. A call that fails adds
nothing. -/
def call (verifier : Verifier) (key : Key) : Except Error Bool × Verifier :=
  match verifier.addKey key with
  | .ok (added, after) => (.ok added, after)
  | .error e => (.error e, verifier)

/-- The verifier with another key in its map. -/
def withKey (verifier : Verifier) (keyId : Octets) (key : verifier.scheme.VerifyingKey) :
    Verifier :=
  { verifier with keys := ⟨verifier.keys.entries ++ [(keyId, key)]⟩ }

/-- A key that does not suit is refused. -/
theorem call_of_not_suits (h : ¬verifier.scheme.Suits key) :
    ∃ flaw, verifier.call key = (.error (.invalidKey flaw), verifier) := by
  cases hread : verifier.scheme.readKey key with
  | error flaw => exact ⟨flaw, by simp [call, addKey, hread]⟩
  | ok verifyingKey => exact absurd (Scheme.suits_iff.2 ⟨_, hread⟩) h

/-- A key with a taken identifier is left out. -/
theorem call_of_taken (h : verifier.scheme.Suits key)
    (htaken : (verifier.keys.get? key.keyId).isSome = true) :
    verifier.call key = (.ok false, verifier) := by
  obtain ⟨verifyingKey, hread⟩ := Scheme.suits_iff.1 h
  simp [call, addKey, hread, KeyStore.insert, htaken]

/-- A suitable key with a free identifier is added. -/
theorem call_of_free {verifyingKey : verifier.scheme.VerifyingKey}
    (h : verifier.scheme.readKey key = .ok verifyingKey)
    (hfree : verifier.keys.get? key.keyId = none) :
    verifier.call key = (.ok true, verifier.withKey key.keyId verifyingKey) := by
  simp [call, addKey, h, KeyStore.insert, hfree, withKey]

/-- The verifier after calls with all the keys, the first one first. -/
def after (verifier : Verifier) (history : List Key) : Verifier :=
  history.foldl (fun verifier key => (verifier.call key).2) verifier

/-- The verifier holds, under each identifier, the first suitable key of the history. -/
structure Remembers (verifier : Verifier) (history : List Key) : Prop where
  found : ∀ keyId, verifier.keys.get? keyId = verifier.scheme.firstKey? history keyId
  distinct : (verifier.keys.entries.map Prod.fst).Nodup

namespace Remembers

/-- A new verifier remembers no keys. -/
theorem start (scheme : Scheme) : Remembers (ofScheme scheme) [] where
  found _ := rfl
  distinct := List.nodup_nil

/-- A key that is refused or passed over is the first of no identifier. -/
theorem concat_of_ignored (h : Remembers verifier history)
    (hignored : verifier.scheme.Suits key → (verifier.keys.get? key.keyId).isSome = true) :
    Remembers verifier (history ++ [key]) where
  found keyId := by
    rw [h.found, Scheme.firstKey?_concat]
    cases hfirst : verifier.scheme.firstKey? history keyId with
    | some verifyingKey => rfl
    | none =>
        rw [Option.none_or]
        split
        · next hkeyId =>
            rw [eq_comm, ← Option.not_isSome_iff_eq_none, Scheme.isSome_toOption_readKey]
            intro hsuits
            have htaken := hignored hsuits
            rw [hkeyId, h.found, hfirst] at htaken
            cases htaken
        · rfl
  distinct := h.distinct

/-- A key that is added is remembered. -/
theorem concat_of_free (h : Remembers verifier history)
    {verifyingKey : verifier.scheme.VerifyingKey}
    (hread : verifier.scheme.readKey key = .ok verifyingKey)
    (hfree : verifier.keys.get? key.keyId = none) :
    Remembers (verifier.withKey key.keyId verifyingKey) (history ++ [key]) where
  found keyId := by
    have hsplit : (verifier.withKey key.keyId verifyingKey).keys.get? keyId =
        (verifier.keys.get? keyId).or (List.lookup keyId [(key.keyId, verifyingKey)]) :=
      List.lookup_append
    have hlast : List.lookup keyId [(key.keyId, verifyingKey)] =
        if key.keyId = keyId then (verifier.scheme.readKey key).toOption else none := by
      rw [hread, List.lookup_cons]
      by_cases hsame : key.keyId = keyId
      · simp [hsame, Except.toOption]
      · simp [hsame, beq_false_of_ne (Ne.symm hsame)]
    rw [hsplit, h.found, hlast]
    exact Scheme.firstKey?_concat.symm
  -- A free identifier is not among those of the entries.
  distinct := by
    have hfresh : key.keyId ∉ verifier.keys.entries.map Prod.fst := by
      intro hmem
      obtain ⟨⟨keyId, other⟩, hentry, rfl⟩ := List.mem_map.1 hmem
      rw [(KeyStore.get?_eq_some_iff h.distinct).2 hentry] at hfree
      cases hfree
    have hentries : (verifier.withKey key.keyId verifyingKey).keys.entries.map Prod.fst =
        verifier.keys.entries.map Prod.fst ++ [key.keyId] :=
      List.map_append
    rw [hentries, List.nodup_append_comm]
    exact List.nodup_cons.2 ⟨hfresh, h.distinct⟩

/-- Every call keeps the account. -/
theorem call (h : Remembers verifier history) (key : Key) :
    Remembers (verifier.call key).2 (history ++ [key]) := by
  cases hread : verifier.scheme.readKey key with
  | error flaw =>
      have hnot : ¬verifier.scheme.Suits key := by
        rw [Scheme.suits_iff]
        simp [hread]
      obtain ⟨flaw, hcall⟩ := call_of_not_suits hnot
      rw [hcall]
      exact h.concat_of_ignored fun hsuits => absurd hsuits hnot
  | ok verifyingKey =>
      have hsuits : verifier.scheme.Suits key := Scheme.suits_iff.2 ⟨_, hread⟩
      cases hget : verifier.keys.get? key.keyId with
      | some held =>
          have htaken : (verifier.keys.get? key.keyId).isSome = true :=
            Option.isSome_of_eq_some hget
          rw [call_of_taken hsuits htaken]
          exact h.concat_of_ignored fun _ => htaken
      | none =>
          rw [call_of_free hread hget]
          exact h.concat_of_free hread hget

end Remembers

end Verifier

/-! ### Answers -/

namespace Verifier

variable {verifier : Verifier} {history : List Key} {key : Key}

end Verifier

end CcnxPacket
