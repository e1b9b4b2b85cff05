/-!
# White space and numerals in settings

`trim` drops the characters of Unicode's `White_Space` property at both ends of a text;
`natural?` reads a decimal number below a bound, with or without a plus sign.
-/

namespace CcnxPacket.Text

/-- The code points of the property `White_Space`, as first and last of each range. -/
def whiteSpaceRanges : List (Nat × Nat) :=
  [(0x09, 0x0D), (0x20, 0x20), (0x85, 0x85), (0xA0, 0xA0), (0x1680, 0x1680), (0x2000, 0x200A),
    (0x2028, 0x2029), (0x202F, 0x202F), (0x205F, 0x205F), (0x3000, 0x3000)]

/-- Whether the character has the property `White_Space`. -/
def isWhiteSpace (c : Char) : Bool :=
  whiteSpaceRanges.any fun (first, last) => first ≤ c.toNat && c.toNat ≤ last

/-- The text without white space at either end. -/
def trim (cs : List Char) : List Char :=
  ((cs.dropWhile isWhiteSpace).reverse.dropWhile isWhiteSpace).reverse

/-- The digits of a numeral, whose plus sign may be left out. -/
def unsignedDigits : List Char → List Char
  | '+' :: digits => digits
  | digits => digits

/-- The number below `bound` that a text spells: ASCII digits, leading zeros allowed. -/
def natural? (bound : Nat) (cs : List Char) : Option Nat :=
  let digits := unsignedDigits cs
  let value := Nat.ofDigitChars 10 digits 0
  if !digits.isEmpty && digits.all Char.isDigit && value < bound then some value else none

/-- The truth value that a text spells, in lower case only. -/
def truth? (cs : List Char) : Option Bool :=
  if cs = ['t', 'r', 'u', 'e'] then some true
  else if cs = ['f', 'a', 'l', 's', 'e'] then some false
  else none

/-- The text with its ASCII letters in lower case. -/
def lowercase (text : String) : String := String.ofList (text.toList.map Char.toLower)

end CcnxPacket.Text
