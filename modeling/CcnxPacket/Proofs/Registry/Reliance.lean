import CcnxPacket.Packet.Signed
import CcnxPacket.Proofs.Grammar.Recognition
import CcnxPacket.Proofs.Registry.Lookup
import CcnxPacket.Proofs.Writing.Message

/-!
# Which formats the codecs rely on

Messages and packet bodies are read and written with the formats of the standard identifiers alone:
a type that the octets choose is checked before its format is looked up, so whatever else a registry
holds is never asked for. This is so for formats of any type. A registry that lacks some of the
standard formats fails for want of one of them or does what the standard registry does.
-/

namespace CcnxPacket

section
variable {F G : Type} [FieldFormat F] [FieldFormat G] {registry : Registry F} {other : Registry G}

/-! ### Reading -/

/-- Reading a field asks the registry for nothing but its identifier. -/
theorem follows_readField (h : registry.IsWithin other) {tid : Tid}
    (htid : tid ∈ Registry.standardTids) (c : Cursor) :
    Follows (registry.Lacks other) (readField registry tid c) (readField other tid c) := by
  apply Registry.follows_lookup_bind h htid
  intro format format' hsame
  rw [hsame.decode]
  exact .refl _

/-- Both loops over the fields see the same headers and take the same octets off what is left, until
the first one ends for want of a format. -/
theorem follows_readFields (h : registry.IsWithin other) (kind : MessageKind)
    (length left : Nat) (fields : List TypedField) (c : Cursor) :
    Follows (registry.Lacks other) (readFields registry kind length left fields c)
      (readFields other kind length left fields c) := by
  -- On the fields that the message may still hold: each round reads one of them.
  induction hmissing : (kind.missing fields).length using Nat.strongRecOn
    generalizing left fields c with
  | ind missing ih =>
      subst hmissing
      rw [readFields, readFields]
      split
      · exact .refl _
      cases c.peekHeader with
      | error e => exact .refl _
      | ok header =>
          simp only
          split
          · exact .refl _
          split
          · exact .refl _
          · next hknown =>
              split
              · exact .refl _
              · next hnew =>
                  have htid := Registry.field_mem_standardTids (not_not.1 hknown)
                  rcases follows_readField h htid c with hsame | ⟨tid, hlacks, hfails⟩
                  · rw [hsame]
                    cases readField other (kind.tid.element header.type) c with
                    | error e => exact .refl _
                    | ok field => exact ih _ (kind.missing_cons_lt _ hknown hnew) _ _ _ rfl
                  · rw [hfails]
                    exact .inr ⟨tid, hlacks, rfl⟩

namespace Message

/-- Reading a message asks for nothing but the standard identifiers. -/
theorem follows_decode (h : registry.IsWithin other) (kind : MessageKind) (c : Cursor) :
    Follows (registry.Lacks other) (decode registry kind c) (decode other kind c) := by
  have hfields : Follows (registry.Lacks other) (decodeFields registry kind c)
      (decodeFields other kind c) := by
    unfold decodeFields
    apply (Follows.refl _).bind
    intro header
    simp only
    split
    · exact .refl _
    split
    · exact .refl _
    · exact (follows_readFields h kind _ _ _ _).bind fun _ => .refl _
  exact hfields.bind fun _ => .refl _

theorem follows_ofOctets (h : registry.IsWithin other) (kind : MessageKind) (octets : Octets) :
    Follows (registry.Lacks other) (ofOctets registry kind octets) (ofOctets other kind octets) :=
  (follows_decode h kind _).bind fun _ => .refl _

end Message

namespace PacketCodec

/-- A codec with the settings of the given one and another registry. -/
def withRegistry (codec : PacketCodec) (registry : Registry F) : PacketCodec F :=
  { registry
    limit := codec.limit
    embedPublicKey := codec.embedPublicKey
    includeSigningTime := codec.includeSigningTime }

/-- Nor does reading the message of a body. -/
theorem follows_decodeMessage (h : registry.IsWithin other) (codec : PacketCodec) (c : Cursor) :
    Follows (registry.Lacks other) ((codec.withRegistry registry).decodeMessage c)
      ((codec.withRegistry other).decodeMessage c) := by
  unfold decodeMessage
  apply (Follows.refl _).bind
  intro header
  split
  · exact .refl _
  · exact (Message.follows_decode h _ c).bind fun _ => .refl _

theorem follows_decodeSuite (h : registry.IsWithin other) (codec : PacketCodec) (length : Nat)
    (c : Cursor) :
    Follows (registry.Lacks other) ((codec.withRegistry registry).decodeSuite length c)
      ((codec.withRegistry other).decodeSuite length c) := by
  unfold decodeSuite
  apply (Follows.refl _).bind
  intro header
  simp only
  split
  · exact .refl _
  split
  · exact .refl _
  split
  · exact .refl _
  · next hknown =>
      cases hsuite : Suite.ofTlvType? header.type with
      | none => simp [hsuite] at hknown
      | some suite =>
          -- The suite is known, so its identifier is a standard one.
          rw [← Suite.ofTlvType?_eq_some_iff.1 hsuite]
          apply Registry.follows_lookup_bind h (Registry.suite_mem_standardTids suite)
          intro format format' hsame
          rw [hsame.decode, hsame.text]
          exact .refl _

theorem follows_decodeAlgorithm? (h : registry.IsWithin other) (codec : PacketCodec) (c : Cursor) :
    Follows (registry.Lacks other) ((codec.withRegistry registry).decodeAlgorithm? c)
      ((codec.withRegistry other).decodeAlgorithm? c) := by
  unfold decodeAlgorithm?
  split
  · exact .refl _
  · apply (Follows.refl _).bind
    intro header
    split
    · apply Follows.bind
      · exact (Follows.refl _).bind fun read => follows_decodeSuite h codec _ _
      · exact fun _ => .refl _
    · exact .refl _

theorem follows_decodeSignature (h : registry.IsWithin other) (codec : PacketCodec) (c : Cursor) :
    Follows (registry.Lacks other) ((codec.withRegistry registry).decodeSignature c)
      ((codec.withRegistry other).decodeSignature c) := by
  unfold decodeSignature
  split
  · exact .refl _
  · apply (Follows.refl _).bind
    intro header
    split
    · exact .refl _
    · apply Registry.follows_lookup_bind h Registry.payload_mem_standardTids
      intro format format' hsame
      rw [hsame.decode, hsame.text]
      exact .refl _

theorem follows_decodeValidation (h : registry.IsWithin other) (codec : PacketCodec)
    (message : Message) (c : Cursor) :
    Follows (registry.Lacks other) ((codec.withRegistry registry).decodeValidation message c)
      ((codec.withRegistry other).decodeValidation message c) := by
  unfold decodeValidation
  apply (follows_decodeAlgorithm? h codec c).bind
  intro read
  obtain ⟨alg, after⟩ := read
  cases alg with
  | none => exact .refl _
  | some alg => exact (follows_decodeSignature h codec after).bind fun _ => .refl _

/-- Decoding a body asks for nothing but the standard identifiers. -/
theorem follows_decode (h : registry.IsWithin other) (codec : PacketCodec) (octets : Octets) :
    Follows (registry.Lacks other) ((codec.withRegistry registry).decode octets)
      ((codec.withRegistry other).decode octets) := by
  unfold decode
  apply (Follows.refl _).bind
  intro _
  apply (follows_decodeMessage h codec _).bind
  intro read
  exact (follows_decodeValidation h codec read.1 read.2).bind fun _ => .refl _

end PacketCodec

/-! ### Writing -/

/-- The size of known fields asks for nothing but their identifiers. -/
theorem follows_fieldsSize (h : registry.IsWithin other) {kind : MessageKind}
    {fields : List TypedField} (hknown : ∀ field ∈ fields, field.1 ∈ kind.fieldTypes) :
    Follows (registry.Lacks other) (fieldsSize registry kind.tid fields)
      (fieldsSize other kind.tid fields) := by
  induction fields with
  | nil => exact .refl _
  | cons field fields ih =>
      rw [List.forall_mem_cons] at hknown
      unfold fieldsSize
      apply Registry.follows_lookup_bind h (Registry.field_mem_standardTids hknown.1)
      intro format format' hsame
      rw [hsame.encodedSize]
      apply (Follows.refl _).bind
      intro size
      exact (ih hknown.2).bind fun _ => .refl _

/-- Where the sizes of all fields are found, so are their formats, and the fields are written
alike. -/
theorem writeFields_eq_of_fieldsSize (h : registry.IsWithin other) {kind : MessageKind}
    {fields : List TypedField} (hknown : ∀ field ∈ fields, field.1 ∈ kind.fieldTypes) {size : Nat}
    (hsize : fieldsSize registry kind.tid fields = .ok size) :
    writeFields registry kind.tid fields = writeFields other kind.tid fields := by
  induction fields generalizing size with
  | nil => rfl
  | cons field fields ih =>
      rw [List.forall_mem_cons] at hknown
      have htid := Registry.field_mem_standardTids hknown.1
      obtain ⟨format, hformat, own, -, hrest⟩ := by
        simpa only [fieldsSize, Result.bind_eq_ok_iff] using hsize
      obtain ⟨rest, hrest, -⟩ := hrest
      rcases Registry.lookup_cases h htid with ⟨found, found', hone, hother, hsame⟩ | ⟨hone, -⟩
      · rw [writeFields, writeFields, hone, hother, ih hknown.2 hrest]
        change (FieldFormat.encode found field.2 field.1 >>= _) =
          (FieldFormat.encode found' field.2 field.1 >>= _)
        rw [hsame.encode]
      · rw [hone] at hformat
        cases hformat

namespace Message

/-- A message is written alike, or the first registry lacks a format and nothing is written. -/
theorem run_encode_cases (h : registry.IsWithin other) (message : Message) (out : Output) :
    (message.encode registry).run out = (message.encode other).run out ∨
      ∃ tid, registry.Lacks other tid ∧
        (message.encode registry).run out = (.error (.unknownType tid), out) := by
  have hknown : ∀ field ∈ message.fields, field.1 ∈ message.kind.fieldTypes :=
    fun _ => mem_fields_type
  have hsizes := follows_fieldsSize h hknown
  unfold encode writeContainer
  rw [message.tid_kind] at hsizes
  rcases hsizes with hsame | ⟨tid, hlacks, hfails⟩
  · left
    cases hsize : fieldsSize registry message.tid message.fields with
    | error e =>
        rw [← hsame, hsize]
        rfl
    | ok size =>
        rw [← message.tid_kind] at hsize
        have hfields := writeFields_eq_of_fieldsSize h hknown hsize
        rw [message.tid_kind] at hfields hsize
        rw [← hsame, hsize, hfields]
  · right
    rw [hfails]
    exact ⟨tid, hlacks, rfl⟩

/-- Writing a message asks for nothing but the standard identifiers. -/
theorem follows_encode (h : registry.IsWithin other) (message : Message) :
    Writer.Follows (registry.Lacks other) (message.encode registry) (message.encode other) := by
  intro out
  rcases run_encode_cases h message out with hsame | ⟨tid, hlacks, hfails⟩
  · exact .inl hsame
  · rw [hfails]
    exact .inr ⟨tid, hlacks, rfl⟩

/-- The size of a message asks for nothing but the standard identifiers. -/
theorem follows_encodedSize (h : registry.IsWithin other) (message : Message) :
    Follows (registry.Lacks other) (message.encodedSize registry) (message.encodedSize other) := by
  have hknown : ∀ field ∈ message.fields, field.1 ∈ message.kind.fieldTypes :=
    fun _ => mem_fields_type
  have hsizes := follows_fieldsSize h hknown
  rw [message.tid_kind] at hsizes
  exact hsizes.map _

end Message

namespace PacketCodec

theorem follows_encodeAlgorithm (h : registry.IsWithin other) (codec : PacketCodec)
    (alg : ValidationAlgorithm) :
    Writer.Follows (registry.Lacks other) ((codec.withRegistry registry).encodeAlgorithm alg)
      ((codec.withRegistry other).encodeAlgorithm alg) := by
  apply Registry.writer_follows_lookup_bind h (Registry.suite_mem_standardTids alg.suite)
  intro format format' hsame
  rw [hsame.encodedSize, hsame.encode]
  exact .refl _

theorem follows_encodeSignature (h : registry.IsWithin other) (codec : PacketCodec)
    (signature : Octets) :
    Writer.Follows (registry.Lacks other) ((codec.withRegistry registry).encodeSignature signature)
      ((codec.withRegistry other).encodeSignature signature) := by
  apply Registry.writer_follows_lookup_bind h Registry.payload_mem_standardTids
  intro format format' hsame
  rw [hsame.encode]
  exact .refl _

theorem follows_encodeValidation (h : registry.IsWithin other) (codec : PacketCodec)
    (validation : Option ValidationAlgorithm) :
    Writer.Follows (registry.Lacks other)
      ((codec.withRegistry registry).encodeValidation validation)
      ((codec.withRegistry other).encodeValidation validation) := by
  unfold encodeValidation
  cases validation with
  | none => exact .refl _
  | some alg =>
      simp only
      cases alg.signature with
      | none => exact .refl _
      | some signature =>
          exact (follows_encodeAlgorithm h codec alg).bind fun _ =>
            follows_encodeSignature h codec signature

/-- Encoding a body asks for nothing but the standard identifiers. -/
theorem follows_encode (h : registry.IsWithin other) (codec : PacketCodec) (body : PacketBody) :
    Follows (registry.Lacks other) ((codec.withRegistry registry).encode body)
      ((codec.withRegistry other).encode body) := by
  have hbody : Writer.Follows (registry.Lacks other)
      ((codec.withRegistry registry).encodeBody body)
      ((codec.withRegistry other).encodeBody body) :=
    (Message.follows_encode h body.message).bind fun _ =>
      follows_encodeValidation h codec body.validation
  exact hbody.toOctets.bind fun _ => .refl _

/-- Both sign what they have written, which is the same octets. -/
theorem follows_encodeSigning (h : registry.IsWithin other) (codec : PacketCodec)
    (message : Message) (alg : ValidationAlgorithm) (signer : SignatureMaker) :
    Writer.Follows (registry.Lacks other)
      ((codec.withRegistry registry).encodeSigning message alg signer)
      ((codec.withRegistry other).encodeSigning message alg signer) := by
  have hprotected : Writer.Follows (registry.Lacks other)
      ((codec.withRegistry registry).encodeProtected message alg)
      ((codec.withRegistry other).encodeProtected message alg) :=
    (Message.follows_encode h message).bind fun _ => follows_encodeAlgorithm h codec alg
  apply hprotected.bind
  intro _
  apply (Writer.Follows.refl _).bind
  intro out
  apply (Writer.Follows.refl _).bind
  intro signature
  exact follows_encodeSignature h codec signature

/-- Signing a message asks for nothing but the standard identifiers. -/
theorem follows_encodeSigned (h : registry.IsWithin other) (codec : PacketCodec) (now : UInt64)
    (message : Message) (signer : SignatureMaker) :
    Follows (registry.Lacks other) ((codec.withRegistry registry).encodeSigned now message signer)
      ((codec.withRegistry other).encodeSigned now message signer) := by
  unfold encodeSigned
  apply (Follows.refl _).bind
  intro alg
  exact (follows_encodeSigning h codec message alg signer).toOctets.bind fun _ => .refl _

end PacketCodec

/-! ### All operations -/

/-- The relation holds between what each operation on messages and packet bodies returns with the
one registry and what it returns with the other one, on every input. -/
structure OperationsRelate (rel : {α : Type} → Except Error α → Except Error α → Prop)
    (registry : Registry F) (other : Registry G) : Prop where
  decodeMessage : ∀ kind c, rel (Message.decode registry kind c) (Message.decode other kind c)
  ofOctets : ∀ kind octets,
    rel (Message.ofOctets registry kind octets) (Message.ofOctets other kind octets)
  encodedSize : ∀ message : Message, rel (message.encodedSize registry) (message.encodedSize other)
  encodeMessage : ∀ (message : Message) (out : Output),
    rel ((message.encode registry).run out).1 ((message.encode other).run out).1
  output : ∀ (message : Message) (out : Output),
    ((message.encode registry).run out).1 = ((message.encode other).run out).1 →
      ((message.encode registry).run out).2 = ((message.encode other).run out).2
  toOctets : ∀ message : Message, rel (message.toOctets registry) (message.toOctets other)
  decode : ∀ (codec : PacketCodec) octets,
    rel ((codec.withRegistry registry).decode octets) ((codec.withRegistry other).decode octets)
  protectedRegion : ∀ (codec : PacketCodec) octets,
    rel ((codec.withRegistry registry).protectedRegion octets)
      ((codec.withRegistry other).protectedRegion octets)
  encode : ∀ (codec : PacketCodec) body,
    rel ((codec.withRegistry registry).encode body) ((codec.withRegistry other).encode body)
  encodeSigned : ∀ (codec : PacketCodec) now message (signer : SignatureMaker),
    rel ((codec.withRegistry registry).encodeSigned now message signer)
      ((codec.withRegistry other).encodeSigned now message signer)
  verify : ∀ (codec : PacketCodec) octets (verifier : SignatureChecker),
    rel ((codec.withRegistry registry).verify octets verifier)
      ((codec.withRegistry other).verify octets verifier)

/-- Operations that follow each other stand in every relation that this implies, provided that
messages are appended alike when they are written with the same result. -/
theorem operationsRelate_of_follows
    {rel : {α : Type} → Except Error α → Except Error α → Prop} (h : registry.IsWithin other)
    (hrel : ∀ {α : Type} {x y : Except Error α}, Follows (registry.Lacks other) x y → rel x y)
    (houtput : ∀ (message : Message) (out : Output),
      ((message.encode registry).run out).1 = ((message.encode other).run out).1 →
        ((message.encode registry).run out).2 = ((message.encode other).run out).2) :
    OperationsRelate rel registry other where
  decodeMessage kind c := hrel (Message.follows_decode h kind c)
  ofOctets kind octets := hrel (Message.follows_ofOctets h kind octets)
  encodedSize message := hrel (Message.follows_encodedSize h message)
  encodeMessage message out := by
    rcases Message.follows_encode h message out with hsame | hlacks
    · exact hrel (.inl (by rw [hsame]))
    · exact hrel (.inr hlacks)
  output := houtput
  toOctets message := hrel (Message.follows_encode h message).toOctets
  decode codec octets := hrel (PacketCodec.follows_decode h codec octets)
  protectedRegion codec octets :=
    hrel ((PacketCodec.follows_decode h codec octets).bind fun _ => .refl _)
  encode codec body := hrel (PacketCodec.follows_encode h codec body)
  encodeSigned codec now message signer :=
    hrel (PacketCodec.follows_encodeSigned h codec now message signer)
  verify codec octets verifier :=
    hrel ((PacketCodec.follows_decode h codec octets).bind fun _ => .refl _)

end

/-- Registries whose formats behave alike at the standard identifiers serve every operation alike,
whatever the types of their formats and whatever else they hold. A registry that has some of the
standard formats, and no other format in place of a missing one, serves as the standard registry
does unless it fails for want of one. -/
theorem operations_rely_on_standard {F G : Type} [FieldFormat F] [FieldFormat G]
    (registry : Registry F) (other : Registry G) :
    ((∀ tid ∈ Registry.standardTids,
        Option.Rel SameFormat (registry.find? tid) (other.find? tid)) →
      OperationsRelate (fun x y => x = y) registry other) ∧
    ((∀ entry ∈ Registry.standardEntries,
        (∃ format, registry.find? entry.1 = some format ∧ SameFormat format entry.2) ∨
          registry.find? entry.1 = none) →
      OperationsRelate
        (fun x y => x = y ∨
          ∃ tid ∈ Registry.standardTids, registry.find? tid = none ∧ x = .error (.unknownType tid))
        registry .shared) := by
  constructor
  · intro hagree
    have hwithin : registry.IsWithin other := fun tid htid => .inl (hagree tid htid)
    have hnone : ∀ tid, ¬registry.Lacks other tid := by
      intro tid h
      obtain ⟨htid, hmissing, hother⟩ := h
      have hrel := hagree tid htid
      rw [hmissing] at hrel
      cases hfound : other.find? tid with
      | none => exact hother hfound
      | some format =>
          rw [hfound] at hrel
          cases hrel
    refine operationsRelate_of_follows hwithin (fun h => h.eq hnone) fun message out _ => ?_
    rcases Message.run_encode_cases hwithin message out with hsame | ⟨tid, hlacks, -⟩
    · rw [hsame]
    · exact absurd hlacks (hnone tid)
  · intro hpart
    have hwithin : registry.IsWithin .shared := by
      intro tid htid
      obtain ⟨entry, hentry, rfl⟩ := List.mem_map.1 htid
      refine (hpart entry hentry).imp_left fun h => ?_
      obtain ⟨format, hfound, hsame⟩ := h
      rw [hfound, Registry.hasStandard_shared entry hentry]
      exact .some hsame
    refine operationsRelate_of_follows hwithin (fun h => h.imp_right fun h => ?_) ?_
    · obtain ⟨tid, ⟨htid, hmissing, -⟩, hx⟩ := h
      exact ⟨tid, htid, hmissing, hx⟩
    · -- Where a format is missing, the first writer writes nothing, and a failure of the second
      -- one leaves the output as it was, too.
      intro message out hresult
      rcases Message.run_encode_cases hwithin message out with hsame | ⟨tid, -, hfails⟩
      · rw [hsame]
      · have hemits := message.emits_encode .shared out
        rw [hfails] at hresult ⊢
        cases helement : message.element .shared with
        | ok e => simp [hemits, helement] at hresult
        | error e =>
            rw [hemits, helement]
            rfl

/-! ### Formats of a user's own -/

/-- The built-in formats, and one that masks the octets of payloads. -/
inductive MaskingFormat where
  | plain (format : Format)
  | masked (mask : UInt8)
deriving DecidableEq

namespace MaskingFormat

/-- The failure of the masking format that was handed anything but a payload. -/
def mismatch (field : Field) : Error := .typeMismatch "MaskedPayload" field.format.fieldKind

instance : FieldFormat MaskingFormat where
  text
    | plain format => format.text
    | masked _ => "MaskedPayload"
  decode
    | plain format => format.decode
    | masked mask => fun _ c =>
      (decodePayload c).map (·.map fun octets => .payload (octets.map (· ^^^ mask)))
  encode
    | plain format => format.encode
    | masked mask => fun field type =>
      match field.payload? with
      | some octets => writeElement type (octets.map (· ^^^ mask))
      | none => throw (mismatch field)
  encodedSize
    | plain format => format.encodedSize
    | masked _ => fun field =>
      match field.payload? with
      | some octets => .ok (Header.width + octets.length)
      | none => .error (mismatch field)

/-- A format among others is the same as on its own. -/
theorem sameFormat_plain (format : Format) : SameFormat (plain format) format :=
  ⟨rfl, rfl, rfl, rfl⟩

end MaskingFormat

/-- A registry of names and masked payloads. -/
def maskingRegistry : Registry MaskingFormat :=
  { policy := .reject
    frozen := true
    entries :=
      [(Tid.interest.element TlvType.name, .plain .name),
        (Tid.interest.element TlvType.payload, .masked 0xFF)] }

/-- `maskingRegistry` with one more format, for an identifier that is not a standard one. -/
def widerRegistry : Registry MaskingFormat :=
  { maskingRegistry with
    entries := (Tid.interest.element 9, .masked 1) :: maskingRegistry.entries }

/-- A registry of names only. -/
def nameRegistry : Registry MaskingFormat :=
  { policy := .reject
    frozen := true
    entries := [(Tid.interest.element TlvType.name, .plain .name)] }

/-- An Interest with a name of one segment, a payload, and a field of a type that no Interest
has. -/
def strangeInterest : Octets :=
  [0, 1, 0, 19, 0, 0, 0, 5, 0, 1, 0, 1, 97, 0, 9, 0, 1, 120, 0, 1, 0, 1, 120]

/-- An Interest with a payload. -/
def payloadInterest : Message := .interest { name := .empty, payload := some [120] }

theorem operations_of_widerRegistry :
    PacketCodec.decode { registry := widerRegistry } strangeInterest =
        .error (.unknownField (Tid.interest.element 9) 13) ∧
      payloadInterest.toOctets widerRegistry =
        .ok [0, 1, 0, 9, 0, 0, 0, 0, 0, 1, 0, 1, 135] ∧
      ∃ tid ∈ Registry.standardTids, nameRegistry.find? tid = none ∧
        payloadInterest.toOctets nameRegistry = .error (.unknownType tid) := by
  have hfound : ∀ tid ∈ Registry.standardTids,
      widerRegistry.find? tid = maskingRegistry.find? tid := by
    decide
  have hagree : ∀ tid ∈ Registry.standardTids,
      Option.Rel SameFormat (widerRegistry.find? tid) (maskingRegistry.find? tid) :=
    fun tid htid => SameFormat.rel_of_eq (hfound tid htid)
  have hplain : ∀ entry ∈ Registry.standardEntries,
      nameRegistry.find? entry.1 = some (.plain entry.2) ∨ nameRegistry.find? entry.1 = none := by
    decide
  have hpart : ∀ entry ∈ Registry.standardEntries,
      (∃ format, nameRegistry.find? entry.1 = some format ∧ SameFormat format entry.2) ∨
        nameRegistry.find? entry.1 = none :=
    fun entry hentry => (hplain entry hentry).imp_left fun h =>
      ⟨_, h, MaskingFormat.sameFormat_plain entry.2⟩
  have hwider := (operations_rely_on_standard widerRegistry maskingRegistry).1 hagree
  have hname := (operations_rely_on_standard nameRegistry maskingRegistry).2 hpart
  have hrefused : PacketCodec.decode { registry := maskingRegistry } strangeInterest =
      .error (.unknownField (Tid.interest.element 9) 13) := by
    decide +kernel
  have hmasked : payloadInterest.toOctets maskingRegistry =
      .ok [0, 1, 0, 9, 0, 0, 0, 0, 0, 1, 0, 1, 135] := by
    decide +kernel
  refine ⟨(hwider.decode { registry := .shared } strangeInterest).trans hrefused,
    (hwider.toOctets payloadInterest).trans hmasked, ?_⟩
  rcases hname.toOctets payloadInterest with hsame | hmissing
  · have hdiffers : payloadInterest.toOctets nameRegistry ≠ payloadInterest.toOctets .shared := by
      decide +kernel
    exact absurd hsame hdiffers
  · exact hmissing

end CcnxPacket
