import CcnxPacket.Proofs.Arrangement
import CcnxPacket.Proofs.Spelling.Message
import CcnxPacket.Proofs.Writing.Writer

/-!
# Elements in any order

The fields of a message and the parts of a validation algorithm are known by their types. So a
container is read alike in whichever order it holds its elements: with the same value, or not at
all. Only the failure may be another one, since it is that of the first element that is at fault.
-/

namespace CcnxPacket

/-- The decoder reads the value from what is ahead of the cursor. -/
def Accepts {α : Type} (decode : Cursor → Except Error (Decoded α)) (c : Cursor) (value : α) :
    Prop :=
  ∃ consumed next, decode c = .ok { value, consumed, next }

/-- What a decoder reads from an element is what the element spells. -/
theorem Reads.accepts_iff {α : Type} {decode : Cursor → Except Error (Decoded α)}
    {spells : Element → α → Prop} (h : Reads decode spells) {e : Element} {c : Cursor}
    (he : e.octets <+: c.ahead) {value : α} : Accepts decode c value ↔ spells e value := by
  constructor
  · intro hread
    obtain ⟨consumed, next, hread⟩ := hread
    obtain ⟨e', he', hspells, -, -⟩ := h.1 hread
    rw [Element.eq_of_starts he he']
    exact hspells
  · intro hspells
    exact ⟨_, _, h.2 ⟨e, he, hspells, rfl, rfl⟩⟩

section
variable {e e' : Element} {es es' : List Element}

/-- The elements of a value, known ones that supply what they stand for, may be permuted. -/
theorem exists_supplies_of_perm {β : Type} {types : List UInt16} {values : UInt16 → Option β}
    {means : UInt16 → Element → β → Prop} (hperm : es.Perm es')
    (h : ∃ parts, Element.concat es = Element.concat parts ∧
      (∀ part ∈ parts, part.type ∈ types) ∧
      ∀ type ∈ types, Supplies parts type (means type) (values type)) :
    ∃ parts, Element.concat es' = Element.concat parts ∧
      (∀ part ∈ parts, part.type ∈ types) ∧
      ∀ type ∈ types, Supplies parts type (means type) (values type) := by
  obtain ⟨parts, hconcat, hknown, hsupplies⟩ := h
  obtain rfl := Element.concat_injective hconcat
  exact ⟨es', rfl, fun part hpart => hknown part (hperm.mem_iff.2 hpart),
    fun type htype => (hsupplies type htype).perm hperm⟩

/-- A message stays the same when its elements change their order. -/
theorem Element.IsMessage.perm {registry : Registry} {message : Message}
    (hmessage : e.IsMessage registry message) (htype : e'.type = e.type) (hperm : es.Perm es')
    (hvalue : e.value = concat es) (hvalue' : e'.value = concat es') :
    e'.IsMessage registry message := by
  have hfields := hmessage.fields
  rw [hvalue] at hfields
  refine ⟨htype.trans hmessage.type, ?_⟩
  rw [hvalue']
  exact exists_supplies_of_perm hperm hfields

/-- An algorithm stays the same when its elements change their order. -/
theorem Element.IsAlgorithm.perm {alg : ValidationAlgorithm} (halg : e.IsAlgorithm alg)
    (htype : e'.type = e.type) (hperm : es.Perm es') (hvalue : e.value = concat es)
    (hvalue' : e'.value = concat es') : e'.IsAlgorithm alg := by
  have hparts := halg.parts
  rw [hvalue] at hparts
  refine ⟨htype.trans halg.suite, halg.made, halg.unsigned, ?_⟩
  rw [hvalue']
  exact exists_supplies_of_perm hperm hparts

/-- A container reads alike in whichever order it holds its elements, whatever surrounds it: as the
same message of a kind, and as the same validation algorithm. -/
theorem accepts_permuted (registry : Registry) (kind : MessageKind) (tid : Tid) (type : UInt16)
    {c c' : Cursor} (hperm : es.Perm es')
    (hfits : (Element.concat es).length ≤ Header.maxLength)
    (hc : rawElement type (Element.concat es) <+: c.ahead)
    (hc' : rawElement type (Element.concat es') <+: c'.ahead) :
    (∀ message, Accepts (Message.decode registry kind) c message ↔
      Accepts (Message.decode registry kind) c' message) ∧
    ∀ field, Accepts (Format.validationAlgorithm.decode tid) c field ↔
      Accepts (Format.validationAlgorithm.decode tid) c' field := by
  have hfits' : (Element.concat es').length ≤ Header.maxLength := by
    rwa [← Element.length_concat_of_perm hperm]
  let e : Element := ⟨type, Element.concat es, hfits⟩
  let e' : Element := ⟨type, Element.concat es', hfits'⟩
  have he : e.octets <+: c.ahead := hc
  have he' : e'.octets <+: c'.ahead := hc'
  constructor
  · intro message
    have hreads := Message.reads_decode registry kind
    rw [hreads.accepts_iff he, hreads.accepts_iff he']
    apply and_congr_right'
    constructor
    · exact fun h => h.perm rfl hperm rfl rfl
    · exact fun h => h.perm rfl hperm.symm rfl rfl
  · intro field
    have hreads := Format.reads_decode .validationAlgorithm tid
    rw [hreads.accepts_iff he, hreads.accepts_iff he']
    cases field with
    | validationAlgorithm alg =>
        constructor
        · exact fun h => Element.IsAlgorithm.perm h rfl hperm rfl rfl
        · exact fun h => Element.IsAlgorithm.perm h rfl hperm.symm rfl rfl
    | _ => exact Iff.rfl

end

/-- The fields of an Interest, the payload before the name. -/
def payloadFirst : List Element :=
  [⟨TlvType.payload, [120], by decide⟩, ⟨TlvType.name, [0, 1, 0, 1, 97], by decide⟩]

theorem accepts_payloadFirst :
    rawElement TlvType.interest (Element.concat payloadFirst) =
        [0, 1, 0, 14, 0, 1, 0, 1, 120, 0, 0, 0, 5, 0, 1, 0, 1, 97] ∧
      Accepts (Message.decode .shared .interest)
        (.ofOctets (rawElement TlvType.interest (Element.concat payloadFirst)))
        (.interest { name := ⟨[⟨.name, [97]⟩]⟩, payload := some [120] }) := by
  have hread : (Message.decode .shared .interest (.ofOctets
      (rawElement TlvType.interest (Element.concat payloadFirst.reverse)))).map (·.value) =
        .ok (.interest { name := ⟨[⟨.name, [97]⟩]⟩, payload := some [120] }) := by
    decide +kernel
  obtain ⟨⟨_, consumed, next⟩, hdecode, rfl⟩ := Result.map_eq_ok_iff.1 hread
  have hahead : ∀ octets : Octets, octets <+: (Cursor.ofOctets octets).ahead :=
    fun _ => List.prefix_rfl
  have hpermuted := accepts_permuted .shared .interest Tid.interest TlvType.interest
    payloadFirst.reverse_perm (by decide) (hahead _) (hahead _)
  exact ⟨by decide, (hpermuted.1 _).1 ⟨consumed, next, hdecode⟩⟩

end CcnxPacket
