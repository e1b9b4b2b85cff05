import CcnxPacket.Proofs.Name.Text
import Mathlib.Data.List.Basic

/-!
# Names are told apart by their text

Two names never have the same text, also where the text is not read back as the name. Splitting the
text of a name at its slashes leaves the texts of its segments. The text of a segment holds an `=`
exactly when it has a label, and the first one ends the label. Labels of different kinds differ, and
what is escaped can be unescaped.
-/

namespace CcnxPacket

/-- Different octets are escaped differently. -/
theorem escaped_injective : Function.Injective fun octets : Octets => octets.flatMap escapeOctet :=
  Function.LeftInverse.injective unescape_flatMap_escapeOctet

/-- Kinds with the same label are the same: the first letter tells the kind, and what follows `App:`
tells the number. -/
theorem SegmentKind.label_injective : Function.Injective label := by
  intro kind other h
  cases kind <;> cases other
  case app.app n m =>
    have hdigits : Nat.toDigits 10 n.toNat = Nat.toDigits 10 m.toNat := List.append_cancel_left h
    have hnumber : n.toNat = m.toNat := by
      rw [← decimalValue_toDigits n.toNat, hdigits, decimalValue_toDigits]
    rw [UInt8.toNat.inj hnumber]
  all_goals simp [label] at h ⊢

namespace Segment

/-- An `=` stands behind a label and nowhere else. -/
theorem equals_mem_chars_iff {segment : Segment} :
    '=' ∈ segment.chars ↔ segment.isBare = false := by
  cases hbare : segment.isBare with
  | true =>
      rw [chars_of_bare hbare]
      simpa using fun h => (isInner_of_mem_escaped h).2 rfl
  | false =>
      rw [chars_of_not_bare hbare]
      simp

/-- Whether a segment is bare can be told from its text. -/
theorem isBare_eq_of_chars_eq {segment other : Segment} (h : segment.chars = other.chars) :
    segment.isBare = other.isBare := by
  have hsame : segment.isBare = false ↔ other.isBare = false := by
    rw [← equals_mem_chars_iff, h, equals_mem_chars_iff]
  cases hother : other.isBare with
  | true => simpa [hother] using hsame
  | false => exact hsame.2 hother

/-- Only segments of the kind name are bare. -/
theorem kind_of_bare {segment : Segment} (h : segment.isBare = true) : segment.kind = .name := by
  rw [isBare, Bool.and_eq_true, beq_iff_eq] at h
  exact h.1

/-- The text of a segment tells its kind and its octets. -/
theorem chars_injective : Function.Injective chars := by
  intro segment other h
  have hsame := isBare_eq_of_chars_eq h
  have hparts : segment.kind = other.kind ∧
      segment.value.flatMap escapeOctet = other.value.flatMap escapeOctet := by
    cases hbare : segment.isBare with
    | true =>
        have hother : other.isBare = true := hsame ▸ hbare
        rw [chars_of_bare hbare, chars_of_bare hother] at h
        exact ⟨(kind_of_bare hbare).trans (kind_of_bare hother).symm, h⟩
    | false =>
        -- Neither labels nor escaped values have an equals sign, so the first one parts them.
        have hother : other.isBare = false := hsame ▸ hbare
        have hlabel : '=' ∉ segment.kind.label := fun hmem =>
          (SegmentKind.isInner_of_mem_label _ hmem).2 rfl
        have hvalue : '=' ∉ segment.value.flatMap escapeOctet := fun hmem =>
          (isInner_of_mem_escaped hmem).2 rfl
        rw [chars_of_not_bare hbare, chars_of_not_bare hother,
          List.append_cons_inj_of_notMem hlabel hvalue] at h
        exact ⟨SegmentKind.label_injective h.1, h.2.2⟩
  cases segment
  cases other
  rw [Segment.mk.injEq]
  exact ⟨hparts.1, escaped_injective hparts.2⟩

end Segment

namespace Name

/-- Different segments have different texts. -/
theorem chars_injective : Function.Injective chars := by
  intro a b h
  have hparts : a.segments.map Segment.chars = b.segments.map Segment.chars := by
    rw [← filter_splitOn_chars, h, filter_splitOn_chars]
  have hsegments : a.segments = b.segments := Segment.chars_injective.list_map hparts
  cases a
  cases b
  rw [Name.mk.injEq]
  exact hsegments

/-- Names have the same text exactly when they are the same, whatever the kinds of their segments
and the octets in them. -/
theorem text_eq_text_iff {a b : Name} : a.text = b.text ↔ a = b := by
  constructor
  · intro h
    exact chars_injective (String.ofList_injective h)
  · rintro rfl
    rfl

/-- A kind whose label is not read back, and octets that look like its label. -/
example : (⟨[⟨.app 4, [120]⟩]⟩ : Name).text = "/App:4=x" ∧
    (⟨[⟨.name, "App:4=x".toUTF8.toList⟩]⟩ : Name).text = "/App:4%3Dx" := by
  decide +kernel

end Name

end CcnxPacket
