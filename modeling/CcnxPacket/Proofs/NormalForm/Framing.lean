import CcnxPacket.Proofs.Spelling.Packet

/-!
# The elements of a packet body

The octets of a packet body are divided into elements in one way only: the message with its fields
and, in a signed body, the section that holds the suite's element with its parts, and the section
that holds the signature.
-/

namespace CcnxPacket

/-- An element whose value is a sequence of elements. -/
structure Container where
  element : Element
  parts : List Element
  holds : element.value = Element.concat parts

/-- The two sections that follow the message of a signed body. -/
structure Sections where
  algorithm : Element
  suite : Container
  /-- The suite's element fills the first section. -/
  holds : algorithm.value = suite.element.octets
  payload : Element

/-- A packet body, divided into elements. -/
structure Framing where
  message : Container
  sections : Option Sections

@[ext] theorem Container.ext {container other : Container}
    (h : container.element = other.element) : container = other := by
  have hparts : container.parts = other.parts := by
    apply Element.concat_injective
    rw [← container.holds, ← other.holds, h]
  cases container
  cases other
  simp_all

@[ext] theorem Sections.ext {sections other : Sections}
    (halgorithm : sections.algorithm = other.algorithm)
    (hpayload : sections.payload = other.payload) : sections = other := by
  have hsuite : sections.suite = other.suite := by
    apply Container.ext
    apply Element.octets_injective
    rw [← sections.holds, ← other.holds, halgorithm]
  cases sections
  cases other
  simp_all

namespace Framing

/-- The fields of the message. -/
def fields (framing : Framing) : List Element := framing.message.parts

/-- The elements behind the message. -/
def sectionElements (framing : Framing) : List Element :=
  framing.sections.elim [] fun sections => [sections.algorithm, sections.payload]

/-- The parts of the suite's element. -/
def validationParts (framing : Framing) : List Element :=
  framing.sections.elim [] fun sections => sections.suite.parts

/-- The octets that are divided. -/
def octets (framing : Framing) : Octets :=
  Element.concat (framing.message.element :: framing.sectionElements)

/-- Octets can be divided in one way only. -/
theorem octets_injective : Function.Injective octets := by
  intro framing other h
  obtain ⟨hmessage, hsections⟩ := List.cons.inj (Element.concat_injective h)
  obtain ⟨message, sections⟩ := framing
  obtain ⟨message', sections'⟩ := other
  have hmessage : message = message' := Container.ext hmessage
  subst hmessage
  cases sections with
  | none =>
      cases sections' with
      | none => rfl
      | some sections' => cases hsections
  | some sections =>
      cases sections' with
      | none => cases hsections
      | some sections' =>
          obtain ⟨halgorithm, hpayload⟩ := List.cons.inj hsections
          rw [Sections.ext halgorithm (List.cons.inj hpayload).1]

/-- The message starts the octets, so its header gives the length of its value. -/
theorem declaredLength_octets (framing : Framing) :
    Header.declaredLength framing.octets = framing.message.element.value.length := by
  have hstarts : framing.message.element.octets <+: framing.octets := List.prefix_append _ _
  rw [Header.declaredLength_of_starts (Element.header_starts hstarts), Element.header_length]

/-- The length of a framing is that of its message and its sections. -/
theorem length_octets (framing : Framing) :
    framing.octets.length =
      framing.message.element.size + (Element.concat framing.sectionElements).length := by
  rw [octets, Element.concat_cons, List.length_append, Element.length_octets]

/-- The framing is that of the body: its elements spell the body's message and its validation. -/
inductive Spells (registry : Registry) : Framing → PacketBody → Prop where
  | unsigned {container : Container} {message : Message}
      (spelled : container.element.IsMessage registry message) :
      Spells registry { message := container, sections := none } { message }
  | signed {container : Container} {sections : Sections} {message : Message}
      {alg : ValidationAlgorithm} {signature : Octets}
      (spelled : container.element.IsMessage registry message)
      (type : sections.algorithm.type = TlvType.validationAlgorithm)
      (suite : registry.Spells (Tid.validationAlgorithm.element sections.suite.element.type)
        sections.suite.element (.validationAlgorithm alg))
      (signed : sections.payload.IsSignatureSection registry signature) :
      Spells registry { message := container, sections := some sections }
        { message, validation := some (alg.withSignature signature) }

/-- The message of a framing spells that of the body. -/
theorem Spells.isMessage {registry : Registry} {framing : Framing} {body : PacketBody}
    (h : framing.Spells registry body) :
    framing.message.element.IsMessage registry body.message := by
  cases h with
  | unsigned hspelled => exact hspelled
  | signed hspelled => exact hspelled

/-- Octets that spell a body can be divided. -/
theorem exists_of_spellsBody {registry : Registry} {octets : Octets} {decoded : DecodedBody}
    (h : SpellsBody registry octets decoded) :
    ∃ framing : Framing, framing.octets = octets ∧ framing.Spells registry decoded.body := by
  cases h with
  | @unsigned e message hmessage =>
      obtain ⟨es, hvalue, -⟩ := hmessage.fields
      refine ⟨{ message := ⟨e, es, hvalue⟩, sections := none }, ?_, .unsigned hmessage⟩
      simp [Framing.octets, sectionElements]
  | @signed e part payload message alg signature hmessage halgorithm hsignature =>
      obtain ⟨es, hvalue, -⟩ := hmessage.fields
      obtain ⟨htype, inner, hinner, hspells⟩ := halgorithm
      obtain ⟨parts, hparts, -⟩ :=
        (Registry.spells_validationAlgorithm_iff.1 hspells).2.parts
      let sections : Sections := ⟨part, ⟨inner, parts, hparts⟩, hinner, payload⟩
      refine ⟨{ message := ⟨e, es, hvalue⟩, sections := some sections }, ?_,
        .signed hmessage htype hspells hsignature⟩
      simp [Framing.octets, sectionElements, sections]

end Framing

end CcnxPacket
