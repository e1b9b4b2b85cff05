import CcnxPacket.Proofs.Text.Numeral
import CcnxPacket.Tid.Text
import Mathlib.Data.List.Forall2

/-!
# The dotted text of type identifiers

A text is split by its points into parts in exactly one way. It is read as an identifier when every
part is a numeral of a component, and the identifier has these components; otherwise the leftmost
part that is none is reported. An identifier is read back from its own text, which has no
superfluous zeros.
-/

namespace CcnxPacket.Tid

/-! ### Parts and what is wrong with them -/

/-- The text is the parts with one point between neighbours, and the parts have no points. -/
structure Splits (cs : List Char) (parts : List (List Char)) : Prop where
  nonempty : parts ≠ []
  free : ∀ part ∈ parts, '.' ∉ part
  joined : ['.'].intercalate parts = cs

/-- The part is a non-empty run of digits that spell the component. -/
structure IsNumeral (part : List Char) (component : UInt32) : Prop where
  nonempty : part ≠ []
  digits : ∀ c ∈ part, c.isDigit = true
  value : decimalValue part = component.toNat

/-- What is wrong with a part that is no numeral of a component. -/
inductive IsFlawed : List Char → TidFlaw → Prop where
  | emptyComponent : IsFlawed [] .emptyComponent
  | notNumeric {part : List Char} {c : Char} (mem : c ∈ part) (other : c.isDigit = false) :
      IsFlawed part .notNumeric
  | overflow {part : List Char} (nonempty : part ≠ []) (digits : ∀ c ∈ part, c.isDigit = true)
      (large : 2 ^ 32 ≤ decimalValue part) : IsFlawed part .overflow

/-- What is wrong with a text: it is empty, or it has a flawed part behind parts that are fine. -/
inductive IsMalformed : List Char → TidFlaw → Prop where
  | empty : IsMalformed [] .empty
  | component {cs part : List Char} {fine rest : List (List Char)} {flaw : TidFlaw}
      (nonempty : cs ≠ []) (splits : Splits cs (fine ++ part :: rest))
      (numerals : ∀ part ∈ fine, ∃ component, IsNumeral part component)
      (flawed : IsFlawed part flaw) : IsMalformed cs flaw

/-- The parts between separators have no separator in them. -/
theorem not_mem_of_mem_splitOn {c : Char} {cs part : List Char} (h : part ∈ cs.splitOn c) :
    c ∉ part := by
  induction cs generalizing part with
  | nil =>
      rw [List.splitOn_nil, List.mem_singleton] at h
      simp [h]
  | cons first cs ih =>
      rw [List.splitOn_cons_eq_if_modifyHead] at h
      obtain ⟨head, tail, hsplit⟩ := List.exists_cons_of_ne_nil (List.splitOn_ne_nil c cs)
      rw [hsplit, List.modifyHead_cons] at h
      split at h
      · rcases List.mem_cons.1 h with rfl | h
        · exact List.not_mem_nil
        · exact ih (hsplit ▸ h)
      · next hfirst =>
          rcases List.mem_cons.1 h with rfl | h
          · have hhead : c ∉ head := ih (hsplit ▸ List.mem_cons_self)
            have hne : c ≠ first := fun heq => hfirst (beq_iff_eq.2 heq.symm)
            simp [hne, hhead]
          · exact ih (hsplit ▸ List.mem_cons_of_mem _ h)

/-- The parts of a text are what splitting at its points gives. -/
theorem splits_iff {cs : List Char} {parts : List (List Char)} :
    Splits cs parts ↔ cs.splitOn '.' = parts := by
  constructor
  · intro h
    rw [← h.joined]
    exact List.splitOn_intercalate '.' h.free h.nonempty
  · intro h
    subst h
    exact ⟨List.splitOn_ne_nil _ _, fun part hpart => not_mem_of_mem_splitOn hpart,
      List.intercalate_splitOn '.'⟩

/-! ### Reading one part -/

theorem allDigits_iff {cs : List Char} : allDigits cs = true ↔ ∀ c ∈ cs, c.isDigit = true :=
  List.all_eq_true

theorem parseComponent_nil : parseComponent [] = .error .emptyComponent := rfl

theorem parseComponent_of_other {part : List Char} {c : Char} (hmem : c ∈ part)
    (hother : c.isDigit = false) : parseComponent part = .error .notNumeric := by
  have hne : part.isEmpty = false := List.isEmpty_eq_false_iff.2 (List.ne_nil_of_mem hmem)
  have hnot : ¬allDigits part = true := by
    intro h
    rw [allDigits_iff.1 h c hmem] at hother
    cases hother
  simp [parseComponent, hne, hnot]

/-- Digits are read as a number when it is a word of 32 bits. -/
theorem parseComponent_of_digits {part : List Char} (hne : part ≠ [])
    (h : ∀ c ∈ part, c.isDigit = true) :
    parseComponent part =
      if decimalValue part < UInt32.size then .ok (UInt32.ofNat (decimalValue part))
      else .error .overflow := by
  have hempty : part.isEmpty = false := List.isEmpty_eq_false_iff.2 hne
  simp only [parseComponent, hempty, allDigits_iff.2 h, ofDigitChars_eq_decimalValue]
  rfl

theorem parseComponent_of_isNumeral {part : List Char} {component : UInt32}
    (h : IsNumeral part component) : parseComponent part = .ok component := by
  have hlt : decimalValue part < UInt32.size := h.value ▸ component.toNat_lt
  rw [parseComponent_of_digits h.nonempty h.digits, if_pos hlt, h.value, UInt32.ofNat_toNat]

theorem parseComponent_of_isFlawed {part : List Char} {flaw : TidFlaw} (h : IsFlawed part flaw) :
    parseComponent part = .error flaw := by
  cases h with
  | emptyComponent => exact parseComponent_nil
  | notNumeric hmem hother => exact parseComponent_of_other hmem hother
  | overflow hne hdigits hlarge =>
      rw [parseComponent_of_digits hne hdigits, if_neg]
      exact Nat.not_lt.2 hlarge

/-- Every part is a numeral of a component or has one flaw. -/
theorem isNumeral_or_isFlawed (part : List Char) :
    (∃ component, IsNumeral part component) ∨ ∃ flaw, IsFlawed part flaw := by
  by_cases hne : part = []
  · subst hne
    exact .inr ⟨_, .emptyComponent⟩
  by_cases hdigits : ∀ c ∈ part, c.isDigit = true
  · by_cases hlt : decimalValue part < 2 ^ 32
    · refine .inl ⟨UInt32.ofNat (decimalValue part), hne, hdigits, ?_⟩
      rw [UInt32.toNat_ofNat', Nat.mod_eq_of_lt hlt]
    · exact .inr ⟨_, .overflow hne hdigits (Nat.not_lt.1 hlt)⟩
  · simp only [not_forall, Bool.not_eq_true] at hdigits
    obtain ⟨c, hmem, hother⟩ := hdigits
    exact .inr ⟨_, .notNumeric hmem hother⟩

/-! ### Reading all parts -/

/-- Numerals are read as the components that they denote. -/
theorem parseComponents_of_numerals {parts : List (List Char)} {components : List UInt32}
    (h : List.Forall₂ IsNumeral parts components) : parseComponents parts = .ok components := by
  induction h with
  | nil => rfl
  | cons hpart _ ih =>
      rw [parseComponents, parseComponent_of_isNumeral hpart]
      simp only [ih, Except.map]

/-- Parts that are fine are passed over, and the flawed part behind them is reported. -/
theorem parseComponents_of_isFlawed {fine rest : List (List Char)} {part : List Char}
    {flaw : TidFlaw} (hfine : ∀ part ∈ fine, ∃ component, IsNumeral part component)
    (h : IsFlawed part flaw) : parseComponents (fine ++ part :: rest) = .error flaw := by
  induction fine with
  | nil => rw [List.nil_append, parseComponents, parseComponent_of_isFlawed h]
  | cons first fine ih =>
      obtain ⟨⟨component, hfirst⟩, hrest⟩ := List.forall_mem_cons.1 hfine
      rw [List.cons_append, parseComponents, parseComponent_of_isNumeral hfirst]
      simp only [ih hrest, Except.map]

/-- All parts are numerals, or there is a leftmost one that is flawed. -/
theorem numerals_or_isFlawed (parts : List (List Char)) :
    (∃ components, List.Forall₂ IsNumeral parts components) ∨
      ∃ fine part rest flaw, parts = fine ++ part :: rest ∧
        (∀ part ∈ fine, ∃ component, IsNumeral part component) ∧ IsFlawed part flaw := by
  induction parts with
  | nil => exact .inl ⟨[], .nil⟩
  | cons first parts ih =>
      rcases isNumeral_or_isFlawed first with ⟨component, hfirst⟩ | ⟨flaw, hflaw⟩
      · rcases ih with ⟨components, hall⟩ | ⟨fine, part, rest, flaw, rfl, hfine, hflaw⟩
        · exact .inl ⟨component :: components, .cons hfirst hall⟩
        · exact .inr ⟨first :: fine, part, rest, flaw, rfl,
            List.forall_mem_cons.2 ⟨⟨component, hfirst⟩, hfine⟩, hflaw⟩
      · exact .inr ⟨[], first, parts, flaw, rfl, fun _ h => absurd h List.not_mem_nil, hflaw⟩

/-! ### Reading a text -/

/-- The text is that of parts which are numerals of the components. -/
def IsDotted (cs : List Char) (components : List UInt32) : Prop :=
  ∃ parts, Splits cs parts ∧ List.Forall₂ IsNumeral parts components

theorem parseChars_of_isDotted {cs : List Char} {tid : Tid} (h : IsDotted cs tid.components) :
    parseChars cs = .ok tid := by
  obtain ⟨parts, hsplits, hall⟩ := h
  have hne : cs.isEmpty = false := by
    cases cs with
    | nil =>
        -- The one part of the empty text is empty, which is no numeral.
        rw [splits_iff, List.splitOn_nil] at hsplits
        subst hsplits
        obtain ⟨component, _, hfirst, -, -⟩ := List.forall₂_cons_left_iff.1 hall
        exact absurd rfl hfirst.nonempty
    | cons c cs => rfl
  rw [parseChars, splits_iff.1 hsplits, parseComponents_of_numerals hall]
  simp [hne, tid.nonempty]

theorem parseChars_of_isMalformed {cs : List Char} {flaw : TidFlaw} (h : IsMalformed cs flaw) :
    parseChars cs = .error flaw := by
  cases h with
  | empty => rfl
  | component hne hsplits hfine hflaw =>
      rw [parseChars, splits_iff.1 hsplits, parseComponents_of_isFlawed hfine hflaw]
      simp [hne]

/-- Every text is dotted or malformed. -/
theorem isDotted_or_isMalformed (cs : List Char) :
    (∃ tid : Tid, IsDotted cs tid.components) ∨ ∃ flaw, IsMalformed cs flaw := by
  by_cases hne : cs = []
  · subst hne
    exact .inr ⟨_, .empty⟩
  have hsplits : Splits cs (cs.splitOn '.') := splits_iff.2 rfl
  -- Of the parts between the dots, all are numerals or there is a first flawed one.
  rcases numerals_or_isFlawed (cs.splitOn '.') with
    ⟨components, hall⟩ | ⟨fine, part, rest, flaw, hparts, hfine, hflaw⟩
  · have hcomponents : components ≠ [] := by
      intro hnil
      subst hnil
      exact hsplits.nonempty (List.forall₂_nil_right_iff.1 hall)
    exact .inl ⟨⟨components, hcomponents⟩, _, hsplits, hall⟩
  · rw [hparts] at hsplits
    exact .inr ⟨flaw, .component hne hsplits hfine hflaw⟩

theorem parse_of_isDotted {input : String} {tid : Tid} (h : IsDotted input.toList tid.components) :
    parse input = .ok tid := by
  rw [parse, parseChars_of_isDotted h]
  rfl

theorem parse_of_isMalformed {input : String} {flaw : TidFlaw}
    (h : IsMalformed input.toList flaw) : parse input = .error (.malformedTid input flaw) := by
  rw [parse, parseChars_of_isMalformed h]
  rfl

/-- Read are the dotted texts, as the identifiers that they denote. -/
theorem parse_eq_ok_iff {input : String} {tid : Tid} :
    parse input = .ok tid ↔ IsDotted input.toList tid.components := by
  refine ⟨fun h => ?_, parse_of_isDotted⟩
  rcases isDotted_or_isMalformed input.toList with ⟨other, hother⟩ | ⟨flaw, hflaw⟩
  · rw [parse_of_isDotted hother] at h
    cases h
    exact hother
  · rw [parse_of_isMalformed hflaw] at h
    cases h

/-- Refused are the malformed texts, for their leftmost flaw. -/
theorem parse_eq_error_iff {input : String} {e : Error} :
    parse input = .error e ↔
      ∃ flaw, e = .malformedTid input flaw ∧ IsMalformed input.toList flaw := by
  constructor
  · intro h
    rcases isDotted_or_isMalformed input.toList with ⟨tid, htid⟩ | ⟨flaw, hflaw⟩
    · rw [parse_of_isDotted htid] at h
      cases h
    · rw [parse_of_isMalformed hflaw] at h
      cases h
      exact ⟨flaw, rfl, hflaw⟩
  · intro h
    obtain ⟨flaw, rfl, hflaw⟩ := h
    exact parse_of_isMalformed hflaw

/-! ### The text of an identifier -/

/-- A component is denoted by its decimal digits. -/
theorem isNumeral_toDigits (component : UInt32) :
    IsNumeral (Nat.toDigits 10 component.toNat) component where
  nonempty := Nat.toDigits_ne_nil
  digits := fun _ => isDigit_of_mem_toDigits
  value := decimalValue_toDigits _

/-- A numeral without superfluous zeros is what its component is written with. -/
theorem IsNumeral.toDigits_eq {part : List Char} {component : UInt32}
    (h : IsNumeral part component) :
    Nat.toDigits 10 component.toNat = withoutLeadingZeros part := by
  rw [← h.value, toDigits_decimalValue h.nonempty h.digits]

/-- The components in decimal, as parts of the text. -/
def numerals (tid : Tid) : List (List Char) :=
  tid.components.map fun component => Nat.toDigits 10 component.toNat

theorem splits_text (tid : Tid) : Splits tid.text.toList tid.numerals where
  nonempty := by
    rw [numerals, ne_eq, List.map_eq_nil_iff]
    exact tid.nonempty
  free := by
    intro part hpart hpoint
    obtain ⟨component, -, rfl⟩ := List.mem_map.1 hpart
    exact nomatch isDigit_of_mem_toDigits hpoint
  joined := by
    rw [text, String.toList_ofList]
    rfl

/-- The text of an identifier denotes it. -/
theorem isDotted_text (tid : Tid) : IsDotted tid.text.toList tid.components := by
  refine ⟨_, tid.splits_text, ?_⟩
  rw [numerals, List.forall₂_map_left_iff, List.forall₂_same]
  exact fun component _ => isNumeral_toDigits component

/-- The text of what was read has the parts of the text that it was read from, each without the
zeros that add nothing. -/
theorem splits_text_of_numerals {tid : Tid} {parts : List (List Char)}
    (h : List.Forall₂ IsNumeral parts tid.components) :
    Splits tid.text.toList (parts.map withoutLeadingZeros) := by
  have hparts : parts.map withoutLeadingZeros = tid.numerals := by
    rw [numerals, ← List.forall₂_eq_eq_eq, List.forall₂_map_left_iff, List.forall₂_map_right_iff]
    exact h.imp fun _ _ hnumeral => hnumeral.toDigits_eq.symm
  rw [hparts]
  exact tid.splits_text

/-- A text is read as an identifier exactly when it is one or more parts with single points between
them, each of them a numeral of a component. Any other text is reported with its flaw, which is that
of its leftmost part that is no numeral. An identifier is read back from its own text, and the text
of what was read is the text read without the superfluous zeros in its parts. -/
theorem parse_dotted (input : String) (tid : Tid) :
    (parse input = .ok tid ↔
      ∃ parts, Splits input.toList parts ∧ List.Forall₂ IsNumeral parts tid.components) ∧
    (∀ e, parse input = .error e ↔
      ∃ flaw, e = .malformedTid input flaw ∧ IsMalformed input.toList flaw) ∧
    parse tid.text = .ok tid ∧
    (parse input = .ok tid → ∃ parts, Splits input.toList parts ∧
      Splits tid.text.toList (parts.map withoutLeadingZeros)) := by
  refine ⟨parse_eq_ok_iff, fun _ => parse_eq_error_iff, parse_of_isDotted tid.isDotted_text, ?_⟩
  intro h
  obtain ⟨parts, hsplits, hall⟩ := parse_eq_ok_iff.1 h
  exact ⟨parts, hsplits, splits_text_of_numerals hall⟩

theorem parse_paddedText :
    parse "007.10" = .ok ⟨[7, 10], by simp⟩ ∧
      ∃ parts, Splits "007.10".toList parts ∧
        Splits "7.10".toList (parts.map withoutLeadingZeros) := by
  have hread : parse "007.10" = .ok ⟨[7, 10], by simp⟩ := by decide +kernel
  exact ⟨hread, (parse_dotted "007.10" ⟨[7, 10], by simp⟩).2.2.2 hread⟩

end CcnxPacket.Tid
