import CcnxPacket.Octets
import CcnxPacket.Toml.Value

/-!
# Reading TOML keys and scalars

Parsers take characters and return what they read with the characters left. They cover bare and
quoted keys, the four kinds of strings, integers in four bases, floating-point numbers, dates and
times.
-/

namespace CcnxPacket.Toml

/-- A computation that reads from the front of a text and may fail. -/
abbrev Parser (α : Type) : Type := StateT (List Char) Option α

namespace Parser

/-- Reads a character that satisfies a condition. -/
def satisfy (p : Char → Bool) : Parser Char
  | [] => none
  | c :: rest => if p c then some (c, rest) else none

/-- Reads the given characters. -/
def literal (cs : List Char) : Parser Unit := fun input =>
  (cs.isPrefixOf? input).map fun rest => ((), rest)

/-- Reads the longest run of characters that satisfy a condition. -/
def run (p : Char → Bool) : Parser (List Char) := fun input => some (input.span p)

/-- Reads nothing, at the end of the text only. -/
def endOfText : Parser Unit := fun input => if input.isEmpty then some ((), input) else none

/-- Reads exactly `n` digits as a number within bounds. -/
def number (n low high : Nat) : Parser Nat := fun input =>
  let digits := input.take n
  let value := Nat.ofDigitChars 10 digits 0
  if digits.length = n ∧ digits.all Char.isDigit ∧ low ≤ value ∧ value ≤ high then
    some (value, input.drop n)
  else none

end Parser

open CcnxPacket.Toml.Parser

/-! ### Characters -/

/-- Spaces and tabs. -/
def isBlank (c : Char) : Bool := c == ' ' || c == '\t'

/-- Characters that may stand in a line: all but control characters, tabs allowed. -/
def isPrintable (c : Char) : Bool := c == '\t' || (0x20 ≤ c.toNat && c.toNat != 0x7F)

/-- Characters of keys without quotes. -/
def isBare (c : Char) : Bool := c.isAlphanum || c == '-' || c == '_'

/-- Reads spaces and tabs. -/
def blanks : Parser Unit := do let _ ← run isBlank

/-- The characters after a line end that they start with. -/
def afterNewline? : List Char → Option (List Char)
  | '\n' :: rest => some rest
  | '\r' :: '\n' :: rest => some rest
  | _ => none

/-- Reads a line end. -/
def newline : Parser Unit := fun input => (afterNewline? input).map fun rest => ((), rest)

/-- Reads a comment up to the end of its line. -/
def comment : Parser Unit := do
  let _ ← satisfy (· == '#')
  let _ ← run isPrintable

/-! ### Strings -/

/-- The character with the code that hexadecimal digits spell, unless it is a surrogate or too
large. -/
def charOfHex? (digits : List Char) : Option Char := do
  let values ← digits.mapM hexValue?
  let code := values.foldl (fun code value => code * 16 + value) 0
  if code.isValidChar then some (Char.ofNat code) else none

/-- What the escape with one letter stands for. -/
def escapedChar? : Char → Option Char
  | 'b' => some '\x08'
  | 't' => some '\t'
  | 'n' => some '\n'
  | 'f' => some '\x0c'
  | 'r' => some '\r'
  | '"' => some '"'
  | '\\' => some '\\'
  | _ => none

/-- Reads the rest of an escape after its backslash. -/
def escape : Parser Char
  | 'u' :: rest =>
    if 4 ≤ rest.length then (charOfHex? (rest.take 4)).map (·, rest.drop 4) else none
  | 'U' :: rest =>
    if 8 ≤ rest.length then (charOfHex? (rest.take 8)).map (·, rest.drop 8) else none
  | c :: rest => (escapedChar? c).map (·, rest)
  | [] => none

/-- Reads the rest of a basic string after its opening quote. -/
def basicTail : (fuel : Nat) → Parser (List Char)
  | 0 => failure
  | fuel + 1 => fun input =>
    match input with
    | '"' :: rest => some ([], rest)
    | '\\' :: rest => do
      let (c, rest) ← escape rest
      let (cs, rest) ← basicTail fuel rest
      return (c :: cs, rest)
    | c :: rest =>
      if isPrintable c then do
        let (cs, rest) ← basicTail fuel rest
        return (c :: cs, rest)
      else none
    | [] => none

/-- The text without the blanks and line ends that it starts with. -/
def dropBlankLines : List Char → List Char
  | '\r' :: '\n' :: rest => dropBlankLines rest
  | c :: rest => if isBlank c || c == '\n' then dropBlankLines rest else c :: rest
  | [] => []

/-- The text after a line end that only blanks precede, and after all blank lines that follow. -/
def afterLineContinuation? (input : List Char) : Option (List Char) :=
  (afterNewline? (input.dropWhile isBlank)).map dropBlankLines

/-- Up to five quotes at the front of a text: how many belong to a string's content, whether the
string ends with them, and the text after them. -/
def quotes (quote : Char) (input : List Char) : Nat × Bool × List Char :=
  let count := (input.take 5).takeWhile (· == quote) |>.length
  if count < 3 then (count, false, input.drop count) else (count - 3, true, input.drop count)

/-- Reads the rest of a string over several lines after its opening quotes. Only basic strings have
escapes. -/
def multilineTail (quote : Char) : (fuel : Nat) → Parser (List Char)
  | 0 => failure
  | fuel + 1 => fun input =>
    match input with
    | [] => none
    | c :: rest =>
      if c == quote then
        let (count, ends, rest) := quotes quote input
        if ends then some (List.replicate count quote, rest)
        else do
          let (cs, rest) ← multilineTail quote fuel rest
          return (List.replicate count quote ++ cs, rest)
      else if c == '\\' && quote == '"' then
        match afterLineContinuation? rest with
        | some rest => multilineTail quote fuel rest
        | none => do
          let (c, rest) ← escape rest
          let (cs, rest) ← multilineTail quote fuel rest
          return (c :: cs, rest)
      else
        match afterNewline? input with
        | some rest => do
          let (cs, rest) ← multilineTail quote fuel rest
          return ('\n' :: cs, rest)
        | none =>
          if isPrintable c then do
            let (cs, rest) ← multilineTail quote fuel rest
            return (c :: cs, rest)
          else none

/-- Reads a string over several lines; a line end right after the opening quotes does not count. -/
def multilineString (quote : Char) : Parser (List Char) := do
  literal [quote, quote, quote]
  let _ ← optional newline
  fun input => multilineTail quote (input.length + 1) input

/-- Reads a basic string of one line. -/
def basicString : Parser (List Char) := do
  let _ ← satisfy (· == '"')
  fun input => basicTail (input.length + 1) input

/-- Reads a literal string of one line. -/
def literalString : Parser (List Char) := do
  let _ ← satisfy (· == '\'')
  let cs ← run fun c => isPrintable c && c != '\''
  let _ ← satisfy (· == '\'')
  return cs

/-- Reads a string of any kind. -/
def string : Parser (List Char) :=
  multilineString '"' <|> basicString <|> multilineString '\'' <|> literalString

/-! ### Keys -/

/-- Reads one part of a key. -/
def simpleKey : Parser String :=
  String.ofList <$>
    (basicString <|> literalString <|> do
      let c ← satisfy isBare
      return c :: (← run isBare))

/-- Reads the parts of a key after the first one, each after a point. -/
def keyTail : (fuel : Nat) → Parser (List String)
  | 0 => failure
  | fuel + 1 =>
    (do blanks
        let _ ← satisfy (· == '.')
        blanks
        let part ← simpleKey
        return part :: (← keyTail fuel))
    <|> pure []

/-- How deeply keys, arrays and inline tables may be nested. -/
def maxDepth : Nat := 79

/-- Reads a key of one or more parts. -/
def key : Parser (String × List String) := do
  let first ← simpleKey
  let parts ← fun input => keyTail (input.length + 1) input
  if parts.length + 1 ≤ maxDepth then return (first, parts) else failure

/-! ### Numbers -/

/-- The digits that a text starts with, single underscores between digits being skipped. -/
def digitTail (p : Char → Bool) : List Char → List Char × List Char
  | '_' :: d :: rest =>
    if p d then
      let (ds, rest) := digitTail p rest
      (d :: ds, rest)
    else ([], '_' :: d :: rest)
  | d :: rest =>
    if p d then
      let (ds, rest) := digitTail p rest
      (d :: ds, rest)
    else ([], d :: rest)
  | [] => ([], [])

/-- Reads one or more digits. -/
def digits (p : Char → Bool) : Parser (List Char) := do
  let first ← satisfy p
  let rest ← fun input => some (digitTail p input)
  return first :: rest

/-- Reads a sign: whether it is a minus. -/
def sign : Parser Bool := do
  let sign ← optional (satisfy fun c => c == '+' || c == '-')
  return sign == some '-'

/-- Reads digits without a zero in front, or a single zero. -/
def decimalDigits : Parser (List Char) :=
  (do let _ ← literal ['0']
      return ['0'])
  <|> digits Char.isDigit

/-- The value of digits in a base. -/
def valueOf (base : Nat) (digits : List Char) : Nat :=
  digits.foldl (fun n d => n * base + (hexValue? d).getD 0) 0

/-- The integer, when it fits 64 bits. -/
def checkedInteger (n : Int) : Parser Int :=
  if -integerBound ≤ n ∧ n < integerBound then return n else failure

/-- Reads a non-negative integer in a base that its first two characters name. -/
def basedInteger (letter : Char) (base : Nat) : Parser Int := do
  literal ['0', letter]
  let ds ← digits fun c => (hexValue? c).any (· < base)
  checkedInteger (valueOf base ds)

/-- Reads an integer. -/
def integer : Parser Int :=
  basedInteger 'x' 16 <|> basedInteger 'o' 8 <|> basedInteger 'b' 2 <|> do
    let negative ← sign
    let n : Int := valueOf 10 (← decimalDigits)
    checkedInteger (if negative then -n else n)

/-- The least number beyond the largest floating-point number of 64 bits and halfway to the next. -/
def overflowBound : Nat := (1 <<< 1024) - (1 <<< 970)

/-- Whether `digits · 10 ^ exponent` is too large for a floating-point number of 64 bits. Far from
the bound the number of digits decides, so that no large power is formed. -/
def overflows (digits : List Char) (exponent : Int) : Bool :=
  let digits := digits.dropWhile (· == '0')
  let size := digits.length + exponent
  if digits.isEmpty || size < 308 then false
  else if 310 < size then true
  else
    let n := valueOf 10 digits
    if 0 ≤ exponent then overflowBound ≤ n * Nat.pow 10 exponent.toNat
    else overflowBound * Nat.pow 10 (-exponent).toNat ≤ n

/-- Reads an exponent with its letter. -/
def exponent : Parser Int := do
  let _ ← satisfy fun c => c == 'e' || c == 'E'
  let negative ← sign
  let n : Int := valueOf 10 (← digits Char.isDigit)
  return if negative then -n else n

/-- Reads the part of a number behind the point. -/
def fraction : Parser (List Char) := do
  let _ ← satisfy (· == '.')
  digits Char.isDigit

/-- Reads a number with a fraction or an exponent. One that is too large is refused, unless it is
negative. -/
def decimalFloat : Parser Unit := do
  let negative ← sign
  let whole ← decimalDigits
  let decimals ← optional fraction
  let power ← match decimals with
    | none => exponent
    | some _ => (·.getD 0) <$> optional exponent
  let decimals := decimals.getD []
  if !negative && overflows (whole ++ decimals) (power - decimals.length) then failure

/-- Reads an infinity or a result that is no number. -/
def specialFloat : Parser Unit := do
  let _ ← sign
  literal ['i', 'n', 'f'] <|> literal ['n', 'a', 'n']

/-- Reads a floating-point number. -/
def float : Parser Unit := decimalFloat <|> specialFloat

/-! ### Dates and times -/

/-- The days of a month. -/
def daysOf (year month : Nat) : Nat :=
  if month = 2 then
    if year % 4 = 0 ∧ (year % 100 ≠ 0 ∨ year % 400 = 0) then 29 else 28
  else if month = 4 ∨ month = 6 ∨ month = 9 ∨ month = 11 then 30
  else 31

/-- Reads a day. -/
def calendarDate : Parser Unit := do
  let year ← number 4 0 9999
  let _ ← satisfy (· == '-')
  let month ← number 2 1 12
  let _ ← satisfy (· == '-')
  let _ ← number 2 1 (daysOf year month)

/-- Reads a time of day. -/
def timeOfDay : Parser Unit := do
  let _ ← number 2 0 23
  let _ ← satisfy (· == ':')
  let _ ← number 2 0 59
  let _ ← satisfy (· == ':')
  let _ ← number 2 0 60
  let _ ← optional do
    let _ ← satisfy (· == '.')
    let _ ← satisfy Char.isDigit
    run Char.isDigit

/-- Reads the distance of a time from universal time. -/
def timeOffset : Parser Unit :=
  (do let _ ← satisfy fun c => c == 'Z' || c == 'z')
  <|> do
    let _ ← satisfy fun c => c == '+' || c == '-'
    let _ ← number 2 0 23
    let _ ← satisfy (· == ':')
    let _ ← number 2 0 59

/-- Reads a day, a time, or both. -/
def date : Parser Unit :=
  (do calendarDate
      let _ ← optional do
        let _ ← satisfy fun c => c == 'T' || c == 't' || c == ' '
        timeOfDay
        optional timeOffset)
  <|> timeOfDay

/-! ### Scalars -/

/-- Reads a value that is neither an array nor a table. -/
def scalar : Parser Value :=
  (do return .string (String.ofList (← string)))
  <|> (do literal ['t', 'r', 'u', 'e']; return .boolean true)
  <|> (do literal ['f', 'a', 'l', 's', 'e']; return .boolean false)
  <|> (do date; return .date)
  <|> (do float; return .float)
  <|> (do return .integer (← integer))

end CcnxPacket.Toml
