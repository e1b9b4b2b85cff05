import CcnxPacket.Octets
import CcnxPacket.Toml.Value

/-!
# Writing TOML strings

A string is written in the first of these forms that shows it without escapes: a basic string, a
literal string, a basic string over several lines, a literal string over several lines. When none
does, it is written as a basic string with escapes, over several lines if it has line ends. A line
end follows the opening quotes of every string that has line ends in it.
-/

namespace CcnxPacket.Toml

/-- The length of the longest run of a character. -/
def longestRun (c : Char) (cs : List Char) : Nat :=
  let step := fun (best, current) x =>
    let current := if x == c then current + 1 else 0
    (max best current, current)
  (cs.foldl step (0, 0)).1

/-- Whether a character can only be written with an escape: control characters except tabs and line
ends. -/
def needsEscape (c : Char) : Bool :=
  (c.toNat < 0x20 && c != '\t' && c != '\n') || c.toNat == 0x7F

/-- The forms of a string. -/
inductive StringForm where
  | basic
  | literal
  | basicLines
  | literalLines
deriving DecidableEq, Repr

/-- The form in which a string is written. -/
def StringForm.choose (cs : List Char) : StringForm :=
  let hasControl := cs.any needsEscape
  let hasBackslash := cs.contains '\\'
  let hasNewline := cs.contains '\n'
  let doubles := longestRun '"' cs
  let singles := longestRun '\'' cs
  if !hasControl && !hasBackslash && !hasNewline && doubles == 0 then basic
  else if !hasControl && !hasNewline && singles == 0 then literal
  else if !hasControl && !hasBackslash && doubles ≤ 2 then basicLines
  else if !hasControl && singles ≤ 2 then literalLines
  else if hasNewline then basicLines
  else basic

/-- The quotes around a string of a form. -/
def StringForm.quotes : StringForm → List Char
  | basic => ['"']
  | literal => ['\'']
  | basicLines => ['"', '"', '"']
  | literalLines => ['\'', '\'', '\'']

/-- A character other than a double quote in a basic string. -/
def escapeChar (lines : Bool) (c : Char) : List Char :=
  if c == '\x08' then ['\\', 'b']
  else if c == '\t' then ['\\', 't']
  else if c == '\n' then if lines then ['\n'] else ['\\', 'n']
  else if c == '\x0c' then ['\\', 'f']
  else if c == '\r' then ['\\', 'r']
  else if c == '\\' then ['\\', '\\']
  else if needsEscape c then
    ['\\', 'u'] ++ (hexDigits 4 c.toNat).map Char.toUpper
  else [c]

/-- The content of a basic string. Of `allowed` double quotes in a row none is escaped, and the
count starts again after an escape. -/
def escapeChars (lines : Bool) (allowed : Nat) : (run : Nat) → List Char → List Char
  | _, [] => []
  | run, c :: cs =>
    if c == '"' then
      if run < allowed then '"' :: escapeChars lines allowed (run + 1) cs
      else '\\' :: '"' :: escapeChars lines allowed 0 cs
    else escapeChar lines c ++ escapeChars lines allowed 0 cs

/-- The string as it is written in a document. -/
def quoted (text : String) : String :=
  let cs := text.toList
  let form := StringForm.choose cs
  let content :=
    match form with
    | .basic => escapeChars false 0 0 cs
    | .basicLines => escapeChars true 2 0 cs
    | .literal | .literalLines => cs
  let opening :=
    if cs.contains '\n' && (form == .basicLines || form == .literalLines) then ['\n'] else []
  String.ofList (form.quotes ++ opening ++ content ++ form.quotes)

end CcnxPacket.Toml
