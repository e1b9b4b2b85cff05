import CcnxPacket.Proofs.Slots
import CcnxPacket.Proofs.Spelling.Scalar

/-!
# What the element of a crypto suite spells

The element of a suite spells a validation algorithm without its signature. It holds the parts of
the algorithm, each at most once and in any order, and it has to be an algorithm that `make`
accepts.
-/

namespace CcnxPacket

namespace ValidationAlgorithm

/-- The algorithm, its signature aside, is one that `make` returns. -/
def IsMade (alg : ValidationAlgorithm) : Prop :=
  make alg.suite alg.keyId alg.publicKey alg.signingTime = .ok alg.unsigned

/-- The types of the elements that a suite's element may hold. -/
def partTypes : List UInt16 := [TlvType.keyId, TlvType.publicKey, TlvType.signingTime]

/-- The octets of the part with the given element type. -/
def Parts.part? (parts : Parts) (type : UInt16) : Option Octets :=
  if type = TlvType.keyId then parts.keyId
  else if type = TlvType.publicKey then parts.publicKey
  else if type = TlvType.signingTime then
    parts.signingTime.map fun time => bigEndian timestampWidth time.toNat
  else none

/-- Everything that the algorithm may carry but its signature. -/
def parts (alg : ValidationAlgorithm) : Parts :=
  { keyId := alg.keyId, publicKey := alg.publicKey, signingTime := alg.signingTime }

end ValidationAlgorithm

/-- The element is that of the algorithm's suite and holds the algorithm's parts in some order. -/
structure Element.IsAlgorithm (e : Element) (alg : ValidationAlgorithm) : Prop where
  suite : e.type = alg.suite.tlvType
  made : alg.IsMade
  unsigned : alg.signature = none
  parts : ∃ es, e.value = Element.concat es ∧
    (∀ part ∈ es, part.type ∈ ValidationAlgorithm.partTypes) ∧
    ∀ type ∈ ValidationAlgorithm.partTypes,
      Supplies es type Element.IsPayload (alg.parts.part? type)

namespace ValidationAlgorithm

/-- `TakesPart parts e after`: the element is a part that is still missing, and adds it. -/
inductive TakesPart : Parts → Element → Parts → Prop where
  | keyId {parts : Parts} {e : Element} (type : e.type = TlvType.keyId)
      (missing : parts.keyId = none) :
      TakesPart parts e { parts with keyId := some e.value }
  | publicKey {parts : Parts} {e : Element} (type : e.type = TlvType.publicKey)
      (missing : parts.publicKey = none) :
      TakesPart parts e { parts with publicKey := some e.value }
  | signingTime {parts : Parts} {e : Element} {time : UInt64}
      (type : e.type = TlvType.signingTime) (missing : parts.signingTime = none)
      (spelled : e.IsTimestamp time) :
      TakesPart parts e { parts with signingTime := some time }

/-- The parts of an algorithm are visited as they are taken. -/
theorem visits_visitPart (tid : Tid) : Visits (visitPart tid) TakesPart := by
  intro parts header c result next hheader
  simp only [visitPart, Result.bind_eq_ok_iff, Prod.exists, Cursor.readValue_eq_ok_iff hheader,
    Result.pure_eq_ok, Result.throw_eq_error]
  constructor
  · intro h
    rcases h with ⟨_, _, ⟨e, rfl, he, rfl, rfl⟩, h⟩
    -- The types are tried in this order, and any other type fails at the end.
    rw [Element.header_type] at h
    split at h
    · next htype =>
        split at h
        · cases h
        · next hmissing =>
            cases h
            exact ⟨e, rfl, he, .keyId htype (by simpa using hmissing), rfl⟩
    split at h
    · next htype =>
        split at h
        · cases h
        · next hmissing =>
            cases h
            exact ⟨e, rfl, he, .publicKey htype (by simpa using hmissing), rfl⟩
    split at h
    · next htype =>
        split at h
        · cases h
        split at h
        · cases h
        · next hmissing height =>
            cases h
            have hspelled := (isTimestamp_iff (not_not.1 height)).2 rfl
            exact ⟨e, rfl, he, .signingTime htype (by simpa using hmissing) hspelled, rfl⟩
    · cases h
  · intro h
    rcases h with ⟨e, rfl, he, hstep, rfl⟩
    refine ⟨_, _, ⟨e, rfl, he, rfl, rfl⟩, ?_⟩
    rw [Element.header_type]
    cases hstep with
    | keyId htype hmissing => simp [htype, hmissing]
    | publicKey htype hmissing =>
        simp [htype, hmissing, TlvType.keyId, TlvType.publicKey]
    | @signingTime time htype hmissing hspelled =>
        have height : e.value.length = timestampWidth := by
          rw [hspelled, length_bigEndian]
        have htime := (isTimestamp_iff height).1 hspelled
        simp [htype, hmissing, height, ← htime, TlvType.keyId, TlvType.publicKey,
          TlvType.signingTime]

/-- What an element of a part's type has to be for the part's octets. -/
def MeansPart (type : UInt16) (e : Element) (octets : Octets) : Prop :=
  e.IsPayload octets ∧ (type = TlvType.signingTime → octets.length = timestampWidth)

namespace Parts

theorem part?_keyId (parts : Parts) : parts.part? TlvType.keyId = parts.keyId := rfl

theorem part?_publicKey (parts : Parts) : parts.part? TlvType.publicKey = parts.publicKey := rfl

theorem part?_signingTime (parts : Parts) :
    parts.part? TlvType.signingTime =
      parts.signingTime.map fun time => bigEndian timestampWidth time.toNat := rfl

theorem part?_withKeyId (parts : Parts) (octets : Octets) (type : UInt16) :
    part? { parts with keyId := some octets } type =
      if type = TlvType.keyId then some octets else parts.part? type := by
  by_cases h : type = TlvType.keyId <;> simp [part?, h]

theorem part?_withPublicKey (parts : Parts) (octets : Octets) (type : UInt16) :
    part? { parts with publicKey := some octets } type =
      if type = TlvType.publicKey then some octets else parts.part? type := by
  by_cases h : type = TlvType.publicKey
  · subst h
    rfl
  · simp [part?, h]

theorem part?_withSigningTime (parts : Parts) (time : UInt64) (type : UInt16) :
    part? { parts with signingTime := some time } type =
      if type = TlvType.signingTime then some (bigEndian timestampWidth time.toNat)
      else parts.part? type := by
  by_cases h : type = TlvType.signingTime
  · subst h
    rfl
  · simp [part?, h]

/-- The octets of the parts determine the parts. -/
theorem eq_of_part?_eq {parts other : Parts}
    (h : ∀ type ∈ partTypes, parts.part? type = other.part? type) : parts = other := by
  have hkeyId := h TlvType.keyId (by decide)
  have hpublicKey := h TlvType.publicKey (by decide)
  have hsigningTime := h TlvType.signingTime (by decide)
  rw [part?_keyId, part?_keyId] at hkeyId
  rw [part?_publicKey, part?_publicKey] at hpublicKey
  rw [part?_signingTime, part?_signingTime] at hsigningTime
  have hinjective : Function.Injective fun time : UInt64 =>
      bigEndian timestampWidth time.toNat := by
    intro time time' heq
    have hnumber := congrArg ofBigEndian heq
    rw [timestampWidth, ofBigEndian_bigEndian_word64, ofBigEndian_bigEndian_word64] at hnumber
    exact UInt64.toNat.inj hnumber
  have htime := Option.map_injective hinjective hsigningTime
  cases parts
  cases other
  simp_all

end Parts

/-- Taking parts records what their elements mean. -/
theorem records_takesPart : Records partTypes Parts.part? MeansPart TakesPart where
  filled := by
    intro parts e after hstep
    cases hstep with
    | keyId htype hmissing =>
        rw [htype]
        exact ⟨by decide, hmissing, e.value, ⟨rfl, fun h => absurd h (by decide)⟩,
          parts.part?_withKeyId e.value⟩
    | publicKey htype hmissing =>
        rw [htype]
        exact ⟨by decide, hmissing, e.value, ⟨rfl, fun h => absurd h (by decide)⟩,
          parts.part?_withPublicKey e.value⟩
    | @signingTime time htype hmissing hspelled =>
        rw [htype, Parts.part?_signingTime, hmissing]
        have height : (bigEndian timestampWidth time.toNat).length = timestampWidth :=
          length_bigEndian _ _
        exact ⟨by decide, rfl, _, ⟨hspelled, fun _ => height⟩, parts.part?_withSigningTime time⟩
  fills := by
    intro parts e octets hknown hempty h
    rcases h with ⟨rfl, height⟩
    simp only [partTypes, List.mem_cons, List.not_mem_nil, or_false] at hknown
    rcases hknown with htype | htype | htype <;> rw [htype] at hempty ⊢
    · exact ⟨_, .keyId htype hempty, parts.part?_withKeyId e.value⟩
    · exact ⟨_, .publicKey htype hempty, parts.part?_withPublicKey e.value⟩
    · rw [Parts.part?_signingTime, Option.map_eq_none_iff] at hempty
      have hspelled := (isTimestamp_iff (height htype)).2 rfl
      have hvalue : e.value = bigEndian timestampWidth _ := hspelled
      refine ⟨_, .signingTime htype hempty hspelled, fun type => ?_⟩
      rw [Parts.part?_withSigningTime, ← hvalue]

/-- The parts are read off a sequence of elements type by type. -/
theorem folds_takesPart_iff {es : List Element} {parts : Parts} :
    Folds TakesPart {} es parts ↔
      (∀ part ∈ es, part.type ∈ partTypes) ∧
        ∀ type ∈ partTypes, Supplies es type Element.IsPayload (parts.part? type) := by
  have hempty : ∀ type, Parts.part? {} type = none := by
    intro type
    simp [Parts.part?]
  have hmeans : ∀ type, Supplies es type (MeansPart type) (parts.part? type) ↔
      Supplies es type Element.IsPayload (parts.part? type) := by
    intro type
    apply supplies_congr
    intro e octets hoctets
    refine and_iff_left ?_
    intro h
    subst h
    obtain ⟨time, -, rfl⟩ := Option.map_eq_some_iff.1 hoctets
    exact length_bigEndian _ _
  simp only [← hmeans]
  rw [← records_takesPart.exists_folds_iff_supplies hempty]
  constructor
  · intro h
    exact ⟨parts, h, fun _ _ => rfl⟩
  · intro h
    rcases h with ⟨final, h, hfinal⟩
    rwa [← Parts.eq_of_part?_eq hfinal]

/-! ### The element of a suite -/

/-- An algorithm is made when nothing is wrong with its keys, and then of what was given. -/
theorem make_eq_ok_iff {suite : Suite} {keyId publicKey : Option Octets}
    {signingTime : Option UInt64} {alg : ValidationAlgorithm} :
    make suite keyId publicKey signingTime = .ok alg ↔
      flaw? suite.kind keyId publicKey = none ∧
        alg = { suite, keyId, publicKey, signingTime, signature := none } := by
  unfold make
  split
  · next flaw hflaw => simp [hflaw]
  · next hflaw => simp [hflaw, eq_comm]

theorem unsigned_eq_self {alg : ValidationAlgorithm} (h : alg.signature = none) :
    alg.unsigned = alg := by
  cases alg
  cases h
  rfl

theorem isMade_iff {alg : ValidationAlgorithm} :
    alg.IsMade ↔ flaw? alg.suite.kind alg.keyId alg.publicKey = none := by
  rw [IsMade, make_eq_ok_iff]
  exact and_iff_left rfl

end ValidationAlgorithm

theorem Suite.ofTlvType?_eq_some_iff {type : UInt16} {suite : Suite} :
    ofTlvType? type = some suite ↔ suite.tlvType = type := by
  constructor
  · intro h
    simpa using List.find?_some h
  · intro h
    subst h
    cases suite <;> rfl

namespace ValidationAlgorithm

/-- An algorithm is read where an element spells it. -/
theorem reads_decode (tid : Tid) : Reads (decode tid) Element.IsAlgorithm := by
  intro c read
  rcases read with ⟨alg, consumed, next⟩
  simp only [decode, Result.bind_eq_ok_iff, Prod.exists, Cursor.readHeader_eq_ok_iff,
    Result.throw_eq_error, Result.pure_eq_ok]
  constructor
  · intro h
    rcases h with ⟨header, _, ⟨hheader, rfl⟩, h⟩
    split at h
    · cases h
    · next suite hsuite =>
        simp only [Result.bind_eq_ok_iff, Prod.exists] at h
        obtain ⟨parts, after, helements, made, hmake, h⟩ := h
        cases h
        obtain ⟨e, rfl, he, ⟨es, hvalue, hfolds⟩, rfl⟩ :=
          (elements_eq_ok_iff (visits_visitPart tid) hheader).1 helements
        obtain ⟨hflaw, rfl⟩ := make_eq_ok_iff.1 hmake
        refine ⟨e, he, ⟨?_, isMade_iff.2 hflaw, rfl, es, hvalue, ?_⟩,
          Element.elementSize_header e, rfl⟩
        · exact (Suite.ofTlvType?_eq_some_iff.1 hsuite).symm
        · exact folds_takesPart_iff.1 hfolds
  · intro h
    rcases h with ⟨e, he, ⟨hsuite, hmade, hunsigned, es, hvalue, hparts⟩, rfl, rfl⟩
    have hheader := Element.header_starts he
    refine ⟨e.header, _, ⟨hheader, rfl⟩, ?_⟩
    rw [Element.header_type, Suite.ofTlvType?_eq_some_iff.2 hsuite.symm]
    simp only [Result.bind_eq_ok_iff, Prod.exists]
    have hfolds : Folds TakesPart {} es alg.parts := folds_takesPart_iff.2 hparts
    refine ⟨_, _, (elements_eq_ok_iff (visits_visitPart tid) hheader).2
      ⟨e, rfl, he, ⟨es, hvalue, hfolds⟩, rfl⟩, alg.unsigned, hmade, ?_⟩
    rw [unsigned_eq_self hunsigned, Element.elementSize_header]

end ValidationAlgorithm

end CcnxPacket
