import CcnxPacket.Proofs.Spelling.Name
import CcnxPacket.Proofs.Text.Numeral
import Mathlib.Data.List.TakeDrop
import Mathlib.Data.List.TakeWhile

/-!
# Reading back the text of a name

Octets are unescaped to what was escaped, and neither escapes nor labels hold a slash or an `=`. So
the text of a name is split into the texts of its segments, and each of them into label and octets.
What comes back differs from the name only in kinds whose labels are not read; reading never gives
such a kind.
-/

namespace CcnxPacket

/-! ### Escapes -/

/-- The character separates neither segments nor a label from octets. -/
def IsInner (c : Char) : Prop := c ≠ '/' ∧ c ≠ '='

instance (c : Char) : Decidable (IsInner c) := by
  unfold IsInner; infer_instance

theorem hexValue?_upperHexDigit : ∀ n < 16, hexValue? (upperHexDigit n) = some n := by decide

theorem isInner_upperHexDigit : ∀ n < 16, IsInner (upperHexDigit n) := by decide

/-- An octet that is written as its character is not written as a reserved one. -/
theorem ne_of_isUnreserved {octet : UInt8} {c : Char} (h : isUnreserved octet = true)
    (hc : (c.isAlphanum || c == '-' || c == '.' || c == '_' || c == '~' || c == ':') = false) :
    Char.ofNat octet.toNat ≠ c := by
  intro heq
  rw [isUnreserved, heq, hc] at h
  simp at h

/-- An escaped octet is written in characters of the inside of a segment. -/
theorem isInner_of_mem_escapeOctet {octet : UInt8} {c : Char} (h : c ∈ escapeOctet octet) :
    IsInner c := by
  have hlow : octet.toNat / 16 < 16 := Nat.div_lt_of_lt_mul octet.toNat_lt
  have hhigh : octet.toNat % 16 < 16 := Nat.mod_lt _ (by decide)
  unfold escapeOctet at h
  split at h
  · next hunreserved =>
      rw [List.mem_singleton] at h
      subst h
      exact ⟨ne_of_isUnreserved hunreserved rfl, ne_of_isUnreserved hunreserved rfl⟩
  · simp only [List.mem_cons, List.not_mem_nil, or_false] at h
    rcases h with rfl | rfl | rfl
    · decide
    · exact isInner_upperHexDigit _ hlow
    · exact isInner_upperHexDigit _ hhigh

/-- Every octet is written in at least one character. -/
theorem escapeOctet_ne_nil (octet : UInt8) : escapeOctet octet ≠ [] := by
  unfold escapeOctet
  split <;> exact List.cons_ne_nil _ _

theorem unescape_cons_of_ne {c : Char} (h : c ≠ '%') (rest : List Char) :
    unescape (c :: rest) = String.utf8EncodeChar c ++ unescape rest := by
  rw [unescape.eq_def]
  simp [h]

/-- A character below 128 stands for the octet with its number. -/
theorem utf8EncodeChar_ofNat {octet : UInt8} (h : octet < 128) :
    String.utf8EncodeChar (Char.ofNat octet.toNat) = [octet] := by
  have hlt : octet.toNat < 128 := UInt8.lt_iff_toNat_lt.1 h
  have hvalid : octet.toNat.isValidChar := .inl (by omega)
  have hval : (Char.ofNat octet.toNat).val.toNat = octet.toNat := by
    rw [Char.ofNat, dif_pos hvalid]
    rfl
  rw [String.utf8EncodeChar, hval]
  simp [Nat.le_of_lt_succ hlt]

/-- An escaped octet is read back, whatever follows it. -/
theorem unescape_escapeOctet (octet : UInt8) (rest : List Char) :
    unescape (escapeOctet octet ++ rest) = octet :: unescape rest := by
  unfold escapeOctet
  split
  · next hunreserved =>
      have hascii : octet < 128 := by
        rw [isUnreserved, Bool.and_eq_true, decide_eq_true_iff] at hunreserved
        exact hunreserved.1
      rw [List.singleton_append, unescape_cons_of_ne (ne_of_isUnreserved hunreserved rfl),
        utf8EncodeChar_ofNat hascii, List.singleton_append]
  · have hhigh := hexValue?_upperHexDigit (octet.toNat / 16) (Nat.div_lt_of_lt_mul octet.toNat_lt)
    have hlow := hexValue?_upperHexDigit (octet.toNat % 16) (Nat.mod_lt _ (by decide))
    simp only [List.cons_append, List.nil_append, unescape, hhigh, hlow, Nat.div_add_mod,
      UInt8.ofNat_toNat]

/-- Escaped octets are unescaped to themselves. -/
theorem unescape_flatMap_escapeOctet (octets : Octets) :
    unescape (octets.flatMap escapeOctet) = octets := by
  induction octets with
  | nil => rfl
  | cons octet octets ih => rw [List.flatMap_cons, unescape_escapeOctet, ih]

theorem isInner_of_mem_escaped {octets : Octets} {c : Char} (h : c ∈ octets.flatMap escapeOctet) :
    IsInner c := by
  obtain ⟨octet, -, hc⟩ := List.mem_flatMap.1 h
  exact isInner_of_mem_escapeOctet hc

theorem escaped_ne_nil {octets : Octets} (h : octets ≠ []) : octets.flatMap escapeOctet ≠ [] := by
  intro hnil
  obtain ⟨octet, hoctet⟩ := List.exists_mem_of_ne_nil _ h
  exact escapeOctet_ne_nil octet (List.flatMap_eq_nil_iff.1 hnil octet hoctet)

/-! ### Labels -/

namespace SegmentKind

/-- Labels are written in characters of the inside of a segment. -/
theorem isInner_of_mem_label {kind : SegmentKind} : ∀ c ∈ kind.label, IsInner c := by
  cases kind with
  | app n =>
      have hlabel : ∀ c ∈ ['A', 'p', 'p', ':'], IsInner c := by simp [IsInner]
      intro c h
      rcases List.mem_append.1 h with h | h
      · exact hlabel c h
      · have hdigit : c.isDigit = true := isDigit_of_mem_toDigits h
        constructor <;> rintro rfl <;> cases hdigit
  | _ => simp [label, IsInner]

/-- Exactly the labels of assigned kinds are read. -/
theorem ofLabel?_eq_some_iff {cs : List Char} {kind : SegmentKind} :
    ofLabel? cs = some kind ↔ kind.IsAssigned ∧ kind.label = cs := by
  constructor
  · intro h
    refine ⟨List.mem_of_find?_eq_some h, ?_⟩
    simpa using List.find?_some h
  · intro h
    obtain ⟨hassigned, rfl⟩ := h
    simp only [IsAssigned, labelled, List.mem_cons, List.not_mem_nil, or_false] at hassigned
    rcases hassigned with rfl | rfl | rfl | rfl | rfl | rfl | rfl | rfl <;> rfl

end SegmentKind

/-! ### Segments -/

namespace Segment

/-- A text is a label if an `=` ends it; without one it is octets only. -/
theorem ofChars_of_inner {cs : List Char} (h : ∀ c ∈ cs, IsInner c) :
    ofChars cs = ⟨.name, unescape cs⟩ := by
  have hall : ∀ c ∈ cs, (c != '=') = true := fun c hc => bne_iff_ne.2 (h c hc).2
  have hspan : cs.span (· != '=') = (cs, []) := by
    rw [List.span_eq_takeWhile_dropWhile, List.takeWhile_eq_self_iff.2 hall,
      List.dropWhile_eq_nil_iff.2 hall]
  rw [ofChars, hspan]

/-- What stands behind a label and an equals sign is the value of a segment of that kind. -/
theorem ofChars_of_label {label value : List Char} (h : ∀ c ∈ label, IsInner c)
    {kind : SegmentKind} (hkind : SegmentKind.ofLabel? label = some kind) :
    ofChars (label ++ '=' :: value) = ⟨kind, unescape value⟩ := by
  have hall : ∀ c ∈ label, (c != '=') = true := fun c hc => bne_iff_ne.2 (h c hc).2
  have hspan : (label ++ '=' :: value).span (· != '=') = (label, '=' :: value) := by
    rw [List.span_eq_takeWhile_dropWhile, List.takeWhile_append_of_pos hall,
      List.dropWhile_append_of_pos hall]
    simp
  rw [ofChars, hspan]
  simp only [hkind]

/-- Whatever is read has a kind whose label is read. -/
theorem isAssigned_ofChars (cs : List Char) : (ofChars cs).kind.IsAssigned := by
  have hname : SegmentKind.name.IsAssigned := by decide
  unfold ofChars
  split
  · exact hname
  · split
    · next hkind => exact (SegmentKind.ofLabel?_eq_some_iff.1 hkind).1
    · exact hname

/-- A bare segment is its value, escaped. -/
theorem chars_of_bare {segment : Segment} (h : segment.isBare = true) :
    segment.chars = segment.value.flatMap escapeOctet := by
  simp [chars, h]

/-- Any other segment is its label and its value, escaped. -/
theorem chars_of_not_bare {segment : Segment} (h : segment.isBare = false) :
    segment.chars = segment.kind.label ++ '=' :: segment.value.flatMap escapeOctet := by
  simp [chars, h]

/-- A segment of an assigned kind is read back from its text. -/
theorem ofChars_chars {segment : Segment} (h : segment.kind.IsAssigned) :
    ofChars segment.chars = segment := by
  cases hbare : segment.isBare with
  | true =>
      have hkind : segment.kind = .name := by
        rw [isBare, Bool.and_eq_true, beq_iff_eq] at hbare
        exact hbare.1
      rw [chars_of_bare hbare, ofChars_of_inner fun c => isInner_of_mem_escaped,
        unescape_flatMap_escapeOctet, ← hkind]
  | false =>
      rw [chars_of_not_bare hbare, ofChars_of_label SegmentKind.isInner_of_mem_label
        (SegmentKind.ofLabel?_eq_some_iff.2 ⟨h, rfl⟩), unescape_flatMap_escapeOctet]

/-- No segment is written with a slash. -/
theorem slash_not_mem_chars (segment : Segment) : '/' ∉ segment.chars := by
  intro h
  cases hbare : segment.isBare with
  | true =>
      rw [chars_of_bare hbare] at h
      exact (isInner_of_mem_escaped h).1 rfl
  | false =>
      rw [chars_of_not_bare hbare, List.mem_append, List.mem_cons] at h
      rcases h with h | h | h
      · exact (SegmentKind.isInner_of_mem_label _ h).1 rfl
      · cases h
      · exact (isInner_of_mem_escaped h).1 rfl

/-- No segment is written as nothing. -/
theorem chars_ne_nil (segment : Segment) : segment.chars ≠ [] := by
  cases hbare : segment.isBare with
  | true =>
      have hvalue : segment.value ≠ [] := by
        rw [isBare, Bool.and_eq_true, Bool.not_eq_true', List.isEmpty_eq_false_iff] at hbare
        exact hbare.2
      rw [chars_of_bare hbare]
      exact escaped_ne_nil hvalue
  | false =>
      rw [chars_of_not_bare hbare]
      exact List.append_ne_nil_of_right_ne_nil _ (List.cons_ne_nil _ _)

end Segment

/-! ### Names -/

namespace Name

/-- A slash in front of each part is a slash between the parts, the first of which is empty. -/
theorem intercalate_nil_cons (parts : List (List Char)) :
    ['/'].intercalate ([] :: parts) = parts.flatMap ('/' :: ·) := by
  suffices h : ∀ first : List Char,
      ['/'].intercalate (first :: parts) = first ++ parts.flatMap ('/' :: ·) from h []
  induction parts with
  | nil => simp
  | cons part parts ih =>
      intro first
      rw [List.intercalate_cons_cons, ih, List.flatMap_cons]
      simp

/-- Splitting the text of a name at its slashes leaves the texts of its segments. -/
theorem filter_splitOn_chars (name : Name) :
    (name.chars.splitOn '/').filter (fun part => !part.isEmpty) =
      name.segments.map Segment.chars := by
  obtain ⟨segments⟩ := name
  cases segments with
  | nil => rfl
  | cons segment segments =>
      have htext : chars ⟨segment :: segments⟩ =
          ['/'].intercalate ([] :: (segment :: segments).map Segment.chars) := by
        rw [intercalate_nil_cons, List.flatMap_map]
        rfl
      have hfree : ∀ part ∈ [] :: (segment :: segments).map Segment.chars, '/' ∉ part := by
        intro part hpart
        rcases List.mem_cons.1 hpart with rfl | hpart
        · exact List.not_mem_nil
        · obtain ⟨segment, -, rfl⟩ := List.mem_map.1 hpart
          exact segment.slash_not_mem_chars
      have hkept : ∀ part ∈ (segment :: segments).map Segment.chars, (!part.isEmpty) = true := by
        intro part hpart
        obtain ⟨segment, -, rfl⟩ := List.mem_map.1 hpart
        rw [Bool.not_eq_true', List.isEmpty_eq_false_iff]
        exact segment.chars_ne_nil
      rw [htext, List.splitOn_intercalate '/' hfree (List.cons_ne_nil _ _),
        List.filter_cons_of_neg (by simp), List.filter_eq_self.2 hkept]

/-- The path of a name is read back when all kinds of its segments are assigned. -/
theorem ofPath_chars {name : Name} (h : name.IsAssigned) : ofPath name.chars = name := by
  have hback : name.segments.map (Segment.ofChars ∘ Segment.chars) = name.segments := by
    conv_rhs => rw [← List.map_id name.segments]
    exact List.map_congr_left fun segment hsegment => Segment.ofChars_chars (h segment hsegment)
  rw [ofPath, filter_splitOn_chars, List.map_map, hback]

/-- The text of a name starts with a slash, so no scheme is dropped from it. -/
theorem ofChars_chars (name : Name) : ofChars name.chars = ofPath name.chars := by
  have hslash : ∃ rest, name.chars = '/' :: rest := by
    obtain ⟨segments⟩ := name
    cases segments with
    | nil => exact ⟨_, rfl⟩
    | cons segment segments => exact ⟨_, rfl⟩
  obtain ⟨rest, hrest⟩ := hslash
  rw [ofChars, hrest]
  rfl

theorem ofChars_scheme (cs : List Char) : ofChars (scheme ++ cs) = ofPath cs := rfl

theorem parse_text {name : Name} (h : name.IsAssigned) : parse name.text = name := by
  rw [parse, text, String.toList_ofList, ofChars_chars, ofPath_chars h]

theorem parse_uri {name : Name} (h : name.IsAssigned) : parse name.uri = name := by
  rw [parse, uri, String.toList_ofList, ofChars_scheme, ofPath_chars h]

/-- Only assigned kinds are read. -/
theorem isAssigned_parse (input : String) : (parse input).IsAssigned := by
  intro segment hsegment
  obtain ⟨part, -, rfl⟩ := List.mem_map.1 hsegment
  exact Segment.isAssigned_ofChars part

/-- A text that assigned names are read back from is read as its name only if that is assigned. -/
theorem parse_eq_iff {name : Name} {input : String} (h : name.IsAssigned → parse input = name) :
    parse input = name ↔
      ∀ segment ∈ name.segments, ∀ n, segment.kind = .app n → n ≤ 3 := by
  rw [← isAssigned_iff]
  exact ⟨fun hparse => hparse ▸ isAssigned_parse input, h⟩

/-- A name is read back from its text, and from the text that its format shows, exactly when it has
no segment of an application kind beyond the fourth. Reading never gives such a segment, so the text
of a name that was read is read as that name again. -/
theorem parse_text_iff (name : Name) (input : String) :
    (parse name.text = name ↔
      ∀ segment ∈ name.segments, ∀ n, segment.kind = .app n → n ≤ 3) ∧
    (∃ shown, Format.name.render (.name name) = .ok shown ∧
      (parse shown = name ↔
        ∀ segment ∈ name.segments, ∀ n, segment.kind = .app n → n ≤ 3)) ∧
    (∀ segment ∈ (parse input).segments,
      segment.kind ∈ [.name, .ipid, .chunk, .version, .app 0, .app 1, .app 2, .app 3]) ∧
    parse (parse input).text = parse input :=
  ⟨parse_eq_iff parse_text, ⟨_, rfl, parse_eq_iff parse_uri⟩, isAssigned_parse input,
    parse_text (isAssigned_parse input)⟩

/-- The kinds that are not read back, octets that look like a label, and an empty segment. -/
example : (parse "/App:4=x/Chunk%3D7//Chunk=7%zz/Name=").segments =
    [⟨.name, "App:4=x".toUTF8.toList⟩, ⟨.name, "Chunk=7".toUTF8.toList⟩,
      ⟨.chunk, "7%zz".toUTF8.toList⟩, ⟨.name, []⟩] := by
  decide +kernel

end Name

end CcnxPacket
