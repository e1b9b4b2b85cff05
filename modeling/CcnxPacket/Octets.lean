/-!
# Octet strings

Everything on the wire is a list of octets. Integers travel most significant octet first
(`bigEndian`, `ofBigEndian`), and octets are shown to people as two lowercase hexadecimal digits
each (`Octets.hex`).
-/

namespace CcnxPacket

/-- A string of octets, first octet first. -/
abbrev Octets := List UInt8

/-- The low `width` octets of `n`, most significant first. -/
def bigEndian : (width : Nat) → (n : Nat) → Octets
  | 0, _ => []
  | width + 1, n => bigEndian width (n / 256) ++ [UInt8.ofNat n]

/-- The number whose octets, most significant first, are `octets`. -/
def ofBigEndian (octets : Octets) : Nat :=
  octets.foldl (fun value octet => value * 256 + octet.toNat) 0

@[simp] theorem length_bigEndian (width n : Nat) : (bigEndian width n).length = width := by
  induction width generalizing n with
  | zero => rfl
  | succ width ih => simp [bigEndian, ih]

/-- The lowercase hexadecimal digit of a number below sixteen. -/
def hexDigit (n : Nat) : Char :=
  if n < 10 then Char.ofNat ('0'.toNat + n) else Char.ofNat ('a'.toNat + (n - 10))

/-- The value of a hexadecimal digit of either case. -/
def hexValue? (c : Char) : Option Nat :=
  if '0' ≤ c ∧ c ≤ '9' then some (c.toNat - '0'.toNat)
  else if 'a' ≤ c ∧ c ≤ 'f' then some (c.toNat - 'a'.toNat + 10)
  else if 'A' ≤ c ∧ c ≤ 'F' then some (c.toNat - 'A'.toNat + 10)
  else none

/-- The `width` lowest hexadecimal digits of `n`, zeros in front included. -/
def hexDigits : (width : Nat) → (n : Nat) → List Char
  | 0, _ => []
  | width + 1, n => hexDigits width (n / 16) ++ [hexDigit (n % 16)]

/-- Two hexadecimal digits for each octet. -/
def Octets.hex (octets : Octets) : String :=
  String.ofList (octets.flatMap fun octet => hexDigits 2 octet.toNat)

/-- `0x` and at least the given number of hexadecimal digits, for numbers that fit them. -/
def hexNumber (width n : Nat) : String :=
  "0x" ++ String.ofList (hexDigits width n)

end CcnxPacket
