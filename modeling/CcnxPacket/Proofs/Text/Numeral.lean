import Mathlib.Tactic.Ring

/-!
# Decimal numerals

A run of digits has a value, to which each digit counts by its place. Zeros in front add nothing to
it, and without them the digits are those that the value is written with: every number has exactly
one numeral without a superfluous zero.
-/

namespace CcnxPacket

/-- The number that digits spell. -/
def decimalValue : List Char → Nat
  | [] => 0
  | digit :: digits => (digit.toNat - '0'.toNat) * 10 ^ digits.length + decimalValue digits

/-- The digits without the zeros in front; the last digit stays. -/
def withoutLeadingZeros : List Char → List Char
  | '0' :: next :: digits => withoutLeadingZeros (next :: digits)
  | digits => digits

/-- Reading digits from the left gives the number that they spell. -/
theorem ofDigitChars_eq_decimalValue (digits : List Char) :
    Nat.ofDigitChars 10 digits 0 = decimalValue digits := by
  suffices h : ∀ start, Nat.ofDigitChars 10 digits start =
      start * 10 ^ digits.length + decimalValue digits by
    simpa using h 0
  -- What is read so far counts by the places of all digits that follow.
  induction digits with
  | nil => simp [decimalValue]
  | cons digit digits ih =>
      intro start
      rw [Nat.ofDigitChars_cons, ih, decimalValue, List.length_cons, Nat.pow_succ]
      ring

/-- The number that a number is written with is that number. -/
theorem decimalValue_toDigits (n : Nat) : decimalValue (Nat.toDigits 10 n) = n := by
  rw [← ofDigitChars_eq_decimalValue, Nat.ofDigitChars_ten_toDigits]

theorem isDigit_of_mem_toDigits {c : Char} {n : Nat} (h : c ∈ Nat.toDigits 10 n) :
    c.isDigit = true :=
  Nat.isDigit_of_mem_toDigits (by decide) (by decide) h

/-! ### Zeros in front -/

theorem toDigits_of_isDigit {digit : Char} (h : digit.isDigit = true) :
    digit.toNat - '0'.toNat < 10 ∧ Nat.toDigits 10 (digit.toNat - '0'.toNat) = [digit] := by
  obtain ⟨hlow, hhigh⟩ := Char.isDigit_iff_toNat.1 h
  have hnine : '9'.toNat = '0'.toNat + 9 := rfl
  have hlt : digit.toNat - '0'.toNat < 10 := by omega
  have hdigit : Nat.digitChar (digit.toNat - '0'.toNat) = digit := by
    apply Char.toNat_inj.1
    rw [Nat.toNat_digitChar_of_lt_ten hlt]
    exact Nat.add_sub_of_le hlow
  exact ⟨hlt, by rw [Nat.toDigits_of_lt_base hlt, hdigit]⟩

/-- Digits behind a number that is not zero go on writing it. -/
theorem toDigits_append {digits : List Char} (h : ∀ c ∈ digits, c.isDigit = true) {start : Nat}
    (hpos : 0 < start) :
    Nat.toDigits 10 start ++ digits =
      Nat.toDigits 10 (start * 10 ^ digits.length + decimalValue digits) := by
  induction digits generalizing start with
  | nil => simp [decimalValue]
  | cons digit digits ih =>
      obtain ⟨hdigit, hdigits⟩ := List.forall_mem_cons.1 h
      obtain ⟨hlt, hone⟩ := toDigits_of_isDigit hdigit
      calc Nat.toDigits 10 start ++ digit :: digits
          = (Nat.toDigits 10 start ++ [digit]) ++ digits := by simp
        _ = Nat.toDigits 10 (10 * start + (digit.toNat - '0'.toNat)) ++ digits := by
            rw [← hone, Nat.toDigits_append_toDigits (by decide) hpos hlt]
        _ = Nat.toDigits 10 ((10 * start + (digit.toNat - '0'.toNat)) * 10 ^ digits.length
              + decimalValue digits) := ih hdigits (by omega)
        _ = Nat.toDigits 10 (start * 10 ^ (digit :: digits).length
              + decimalValue (digit :: digits)) := by
            rw [decimalValue, List.length_cons, Nat.pow_succ]
            congr 1
            ring

/-- The value of digits is written with these digits, without the zeros in front. -/
theorem toDigits_decimalValue {digits : List Char} (hne : digits ≠ [])
    (h : ∀ c ∈ digits, c.isDigit = true) :
    Nat.toDigits 10 (decimalValue digits) = withoutLeadingZeros digits := by
  induction digits with
  | nil => exact absurd rfl hne
  | cons digit digits ih =>
      obtain ⟨hdigit, hdigits⟩ := List.forall_mem_cons.1 h
      obtain ⟨-, hone⟩ := toDigits_of_isDigit hdigit
      by_cases hzero : digit = '0'
      · subst hzero
        cases digits with
        | nil => rfl
        | cons next digits =>
            rw [withoutLeadingZeros, ← ih (List.cons_ne_nil _ _) hdigits]
            simp [decimalValue]
      · have hpos : 0 < digit.toNat - '0'.toNat := by
          have hlow := (Char.isDigit_iff_toNat.1 hdigit).1
          have hne : digit.toNat ≠ '0'.toNat := fun heq => hzero (Char.toNat_inj.1 heq)
          omega
        have hwritten := toDigits_append hdigits hpos
        rw [hone] at hwritten
        rw [decimalValue, ← hwritten, withoutLeadingZeros.eq_def]
        simp [hzero]

end CcnxPacket
