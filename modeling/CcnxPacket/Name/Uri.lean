import CcnxPacket.Name

/-!
# The text of a name

A name is written as a path: a slash before each segment, and a single slash for the name without
segments. A segment is its octets, the unreserved ones as characters and all others as `%` and two
uppercase hexadecimal digits. A label and `=` stand before the octets unless the segment is plain
and non-empty.

Reading drops the scheme `ccnx:` once, skips empty segments, takes a label only when it is a known
one, and keeps a malformed escape as it stands. Characters outside escapes stand for their UTF-8
octets.
-/

namespace CcnxPacket

/-- Whether the octet is written as the ASCII character it is. -/
def isUnreserved (octet : UInt8) : Bool :=
  let c := Char.ofNat octet.toNat
  octet < 128 && (c.isAlphanum || c == '-' || c == '.' || c == '_' || c == '~' || c == ':')

/-- The uppercase hexadecimal digit of a number below sixteen. -/
def upperHexDigit (n : Nat) : Char := (hexDigit n).toUpper

/-- One octet in the text of a segment. -/
def escapeOctet (octet : UInt8) : List Char :=
  if isUnreserved octet then [Char.ofNat octet.toNat]
  else ['%', upperHexDigit (octet.toNat / 16), upperHexDigit (octet.toNat % 16)]

/-- The octets that a text with escapes stands for. -/
def unescape : List Char → Octets
  | '%' :: high :: low :: rest =>
    match hexValue? high, hexValue? low with
    | some h, some l => UInt8.ofNat (16 * h + l) :: unescape rest
    | _, _ => String.utf8EncodeChar '%' ++ unescape (high :: low :: rest)
  | c :: rest => String.utf8EncodeChar c ++ unescape rest
  | [] => []

namespace Segment

/-- Whether the label is left out: a plain segment says what it is by having no label. -/
def isBare (segment : Segment) : Bool := segment.kind == .name && !segment.value.isEmpty

/-- The text of a segment. -/
def chars (segment : Segment) : List Char :=
  (if segment.isBare then [] else segment.kind.label ++ ['=']) ++ segment.value.flatMap escapeOctet

/-- The segment that a text without slashes stands for. -/
def ofChars (cs : List Char) : Segment :=
  match cs.span (· != '=') with
  | (_, []) => ⟨.name, unescape cs⟩
  | (label, _ :: value) =>
    match SegmentKind.ofLabel? label with
    | some kind => ⟨kind, unescape value⟩
    | none => ⟨.name, unescape cs⟩

end Segment

namespace Name

/-- The scheme in front of a name that is written as a URI. -/
def scheme : List Char := ['c', 'c', 'n', 'x', ':']

/-- The characters of a name's text. -/
def chars (name : Name) : List Char :=
  if name.isEmpty then ['/'] else name.segments.flatMap fun segment => '/' :: segment.chars

/-- The text of a name. -/
def text (name : Name) : String := String.ofList name.chars

/-- The text of a name with its scheme. -/
def uri (name : Name) : String := String.ofList (scheme ++ name.chars)

/-- The name that a path stands for. -/
def ofPath (cs : List Char) : Name :=
  ⟨((cs.splitOn '/').filter fun part => !part.isEmpty).map Segment.ofChars⟩

/-- The name that a text stands for; every text stands for one. -/
def ofChars (cs : List Char) : Name :=
  ofPath ((scheme.isPrefixOf? cs).getD cs)

/-- Reads the text of a name. -/
def parse (text : String) : Name := ofChars text.toList

end Name

end CcnxPacket
