import CcnxPacket.Toml.Scalar

/-!
# TOML documents

A document is a sequence of lines. A key with a value adds an entry to the table at hand, a header
in brackets turns to another table, and one in double brackets starts a new member of an array of
tables. A table is opened by one header only, and keys with several parts extend only tables that
such keys have made.
-/

namespace CcnxPacket.Toml

open CcnxPacket.Toml.Parser

/-! ### Tables under construction -/

/-- A value under construction. -/
inductive Item where
  | value (value : Value)
  /-- A table. It is implicit while no header has opened it, and dotted when a key with several
  parts has made it. -/
  | table (isImplicit isDotted : Bool) (entries : List (String × Item))
  /-- The members of an array of tables, the last one first. -/
  | tables (members : List Item)

mutual

/-- The finished value. -/
def Item.toValue : Item → Value
  | .value v => v
  | .table _ _ entries => .table (Item.toEntries entries)
  | .tables members => .array (Item.toValues members).reverse

/-- The finished entries of a table. -/
def Item.toEntries : List (String × Item) → Entries
  | [] => []
  | (key, item) :: rest => (key, item.toValue) :: Item.toEntries rest

/-- The finished values of items. -/
def Item.toValues : List Item → List Value
  | [] => []
  | item :: rest => item.toValue :: Item.toValues rest

end

namespace Item

/-- A table that nothing has been put into. -/
def emptyTable (isImplicit isDotted : Bool) : Item := .table isImplicit isDotted []

/-- The entries with the one of the given key replaced, or added at the end. -/
def put (key : String) (item : Item) : List (String × Item) → List (String × Item)
  | [] => [(key, item)]
  | (k, old) :: rest => if k = key then (k, item) :: rest else (k, old) :: put key item rest

/-- Changes the table at the end of a path, making the tables on the way that are missing. Of an
array of tables the last member is meant. Keys with several parts (`dotted`) do not enter tables
that a header or braces have opened. -/
def descend (dotted : Bool) (path : List String) (change : Item → Option Item) (item : Item) :
    Option Item :=
  match path, item with
  | [], item => change item
  | key :: path, .table isImplicit isDotted entries => do
    let child := (entries.lookup key).getD (emptyTable true dotted)
    let child ← match child with
      | .value _ => none
      | .tables [] => none
      | .tables (last :: others) =>
        (descend dotted path change last).map fun last => .tables (last :: others)
      | .table childImplicit _ _ =>
        if dotted && !childImplicit then none else descend dotted path change child
    return .table isImplicit isDotted (put key child entries)
  | _ :: _, _ => none

/-- Adds an entry to a table that does not have the key. A key of several parts is only added to a
table that such keys have made, a simple one only to others. -/
def addEntry (isSimple : Bool) (key : String) (entry : Item) : Item → Option Item
  | .table isImplicit isDotted entries =>
    if isDotted == isSimple || (entries.lookup key).isSome then none
    else some (.table isImplicit isDotted (entries ++ [(key, entry)]))
  | _ => none

/-- Adds an entry under a key of one or more parts. -/
def addKey (table : Item) (key : String × List String) (entry : Item) : Option Item :=
  let parts := key.1 :: key.2
  let path := parts.dropLast
  descend true path (addEntry path.isEmpty (parts.getLastD key.1) entry) table

/-- Opens the table of a header: one that is new or has only been passed through so far. -/
def openTable (key : String) : Item → Option Item
  | .table isImplicit isDotted entries =>
    match entries.lookup key with
    | none => some (.table isImplicit isDotted (entries ++ [(key, emptyTable false false)]))
    | some (.table true false inner) =>
      some (.table isImplicit isDotted (put key (.table false false inner) entries))
    | _ => none
  | _ => none

/-- Starts a new member of the array of tables of a header. -/
def openMember (key : String) : Item → Option Item
  | .table isImplicit isDotted entries =>
    match entries.lookup key with
    | none =>
      some (.table isImplicit isDotted (entries ++ [(key, .tables [emptyTable false false])]))
    | some (.tables members) =>
      some (.table isImplicit isDotted
        (put key (.tables (emptyTable false false :: members)) entries))
    | _ => none
  | _ => none

end Item

/-! ### Values -/

/-- Reads blanks, line ends and comments. -/
def gaps : (fuel : Nat) → Parser Unit
  | 0 => failure
  | fuel + 1 => do
    blanks
    let found ← optional ((do comment; newline) <|> newline)
    if found.isSome then gaps fuel

/-- Reads blanks, line ends and comments, as many as there are. -/
def gap : Parser Unit := fun input => gaps (input.length + 1) input

/-- Reads the rest of an array after its opening bracket. -/
def arrayTail (value : Parser Value) : (fuel : Nat) → Parser (List Value)
  | 0 => failure
  | fuel + 1 =>
    (do gap
        literal [']']
        return [])
    <|> do
      gap
      let first ← value
      gap
      (do literal [']']
          return [first])
      <|> do
        literal [',']
        return first :: (← arrayTail value fuel)

/-- Reads the entries of an inline table and its closing brace. -/
def inlineTail (value : Parser Value) : (fuel : Nat) → (table : Item) → Parser Item
  | 0, _ => failure
  | fuel + 1, table => do
    blanks
    let key ← key
    blanks
    literal ['=']
    blanks
    let entry ← value
    blanks
    match table.addKey key (.value entry) with
    | none => failure
    | some table =>
      (do literal ['}']
          return table)
      <|> do
        literal [',']
        inlineTail value fuel table

/-- Reads a value nested at most `depth` deep. -/
def value : (depth : Nat) → Parser Value
  | 0 => scalar
  | depth + 1 =>
    scalar
    <|> (do literal ['[']
            return .array (← fun input => arrayTail (value depth) (input.length + 1) input))
    <|> do
      literal ['{']
      let empty := Item.emptyTable true false
      (do blanks
          literal ['}']
          return empty.toValue)
      <|> (return (← fun input => inlineTail (value depth) (input.length + 1) empty input).toValue)

/-! ### Lines -/

/-- What a line of a document says. -/
inductive Line where
  | blank
  | entry (key : String × List String) (value : Value)
  | header (key : String × List String)
  | member (key : String × List String)

/-- Reads the end of a line: blanks, a comment, and a line end unless the document ends. -/
def lineEnd : Parser Unit := do
  blanks
  let _ ← optional comment
  newline <|> endOfText

/-- Reads the key of a header between brackets. -/
def headerKey (opening closing : List Char) : Parser (String × List String) := do
  literal opening
  blanks
  let key ← key
  blanks
  literal closing
  return key

/-- Reads one line. -/
def line : Parser Line := do
  blanks
  let line ←
    (return .member (← headerKey ['[', '['] [']', ']']))
    <|> (return .header (← headerKey ['['] [']']))
    <|> (do
      let key ← key
      blanks
      literal ['=']
      blanks
      return .entry key (← value maxDepth))
    <|> pure .blank
  lineEnd
  return line

/-- The lines of a document. -/
def lines : (fuel : Nat) → List Char → Option (List Line)
  | 0, _ => none
  | _ + 1, [] => some []
  | fuel + 1, input => do
    let (first, rest) ← line input
    return first :: (← lines fuel rest)

/-- A document under construction. -/
structure Builder where
  root : Item
  /-- The parts of the header of the table at hand. -/
  path : List String

namespace Builder

/-- The document before its first line. -/
def start : Builder := { root := Item.emptyTable false false, path := [] }

/-- Turns to the table of a header. -/
def turn (key : String × List String) (change : String → Item → Option Item) (b : Builder) :
    Option Builder := do
  let parts := key.1 :: key.2
  let root ← b.root.descend false parts.dropLast (change (parts.getLastD key.1))
  return { root, path := parts }

/-- The document after one more line. -/
def add (b : Builder) : Line → Option Builder
  | .blank => some b
  | .entry key value => do
    let root ← b.root.descend false b.path fun table => table.addKey key (.value value)
    return { b with root }
  | .header key => b.turn key Item.openTable
  | .member key => b.turn key Item.openMember

end Builder

/-- The entries of the document that a text spells; a byte order mark in front does not count. -/
def parse (text : String) : Option Entries := do
  let input := text.toList
  let input := if input.head? == some '\uFEFF' then input.drop 1 else input
  let lines ← lines (input.length + 1) input
  let built ← lines.foldlM Builder.add Builder.start
  match built.root.toValue with
  | .table entries => some entries
  | _ => none

end CcnxPacket.Toml
