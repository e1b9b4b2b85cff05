import CcnxPacket.Error

/-!
# Paths and file systems

A path is a text with slashes. `Path.parent?` takes off its last component, counting neither empty
components nor `.` ones. A file system is a tree of directories and files with a working directory,
where relative paths start; it says what reading a path gives and whether a file can be written.
-/

namespace CcnxPacket

/-! ### Paths -/

namespace Path

/-- The text, last character first, without the components at its end that count for nothing. -/
def trimReversed : (fuel : Nat) → List Char → List Char
  | 0, path => path
  | _ + 1, [] => []
  | fuel + 1, path =>
    let component := path.takeWhile (· != '/')
    if component.isEmpty || component == ['.'] then
      trimReversed fuel ((path.drop component.length).drop 1)
    else path

/-- The text without the components at its end that count for nothing. -/
def trimmed (path : List Char) : List Char := (trimReversed (path.length + 1) path.reverse).reverse

/-- The text without its last component, which has to count, and without the slash before it. -/
def dropComponent (path : List Char) : List Char :=
  ((path.reverse.dropWhile (· != '/')).drop 1).reverse

/-- The start of a path that says where it begins: the root or the working directory. -/
def anchor : List Char → List Char
  | '/' :: _ => ['/']
  | ['.'] => ['.']
  | '.' :: '/' :: _ => ['.']
  | _ => []

/-- The path without its last component; the root and the empty path have none to take off. -/
def parentChars? (path : List Char) : Option (List Char) :=
  let start := anchor path
  let body := trimmed (path.drop start.length)
  if body.isEmpty then if start = ['.'] then some [] else none
  else some (start ++ trimmed (dropComponent body))

/-- The path without its last component. -/
def parent? (path : String) : Option String := (parentChars? path.toList).map String.ofList

end Path

/-! ### File systems -/

/-- A file or a directory. -/
inductive Node where
  | file (contents : String)
  | directory (entries : List (String × Node))

/-- A tree of files and the directory in it where relative paths start. -/
structure FileSystem where
  root : List (String × Node)
  /-- The names on the way from the root. -/
  workingDirectory : List String

namespace FileSystem

/-- The longest path, in octets. -/
def maxPath : Nat := 4095

/-- The longest name in a directory, in octets. -/
def maxName : Nat := 255

/-- The node at the end of a way from a directory. -/
def nodeAt? (entries : List (String × Node)) : List String → Option Node
  | [] => some (.directory entries)
  | name :: names =>
    match entries.lookup name with
    | none => none
    | some (.file contents) => if names.isEmpty then some (.file contents) else none
    | some (.directory inner) => nodeAt? inner names

/-- The place one component further on, which has to be a directory unless the component is last. -/
def enter (fs : FileSystem) (place : List String) (component : String) :
    Except FileFlaw (List String) :=
  match nodeAt? fs.root place with
  | none => .error .notFound
  | some (.file _) => .error .notDirectory
  | some (.directory entries) =>
    if component = "" ∨ component = "." then .ok place
    else if component = ".." then .ok place.dropLast
    else if maxName < component.utf8ByteSize then .error .nameTooLong
    else if (entries.lookup component).isSome then .ok (place ++ [component])
    else .error .notFound

/-- The components of a path and the place where they start. -/
def split (fs : FileSystem) (path : String) : Except FileFlaw (List String × List String) :=
  if path.toList.contains '\x00' then .error .nulInName
  else if path.isEmpty then .error .notFound
  else if maxPath < path.utf8ByteSize then .error .nameTooLong
  else
    let components := (path.toList.splitOn '/').map String.ofList
    .ok (components, if path.toList.head? = some '/' then [] else fs.workingDirectory)

/-- The node that a path names. -/
def find (fs : FileSystem) (path : String) : Except FileFlaw Node := do
  let (components, start) ← fs.split path
  let place ← components.foldlM fs.enter start
  match nodeAt? fs.root place with
  | some node => return node
  | none => throw .notFound

/-- Whether a path names a node. -/
def contains (fs : FileSystem) (path : String) : Bool := (fs.find path).isOk

/-- The contents of a file. -/
def read (fs : FileSystem) (path : String) : Except FileFlaw String := do
  match ← fs.find path with
  | .file contents => return contents
  | .directory _ => throw .isDirectory

/-- Whether a file can be written at a path: one that is there, or a new one in a directory. A path
that ends in a slash, or whose last component is no name, asks for a directory. -/
def checkWritable (fs : FileSystem) (path : String) : Except FileFlaw Unit := do
  let (components, start) ← fs.split path
  let named := (components.reverse.dropWhile (· == "")).reverse
  let name := named.getLastD ""
  let place ← named.dropLast.foldlM fs.enter start
  match nodeAt? fs.root place with
  | some (.directory entries) =>
    if named.length < components.length ∨ name = "." ∨ name = ".." then throw .isDirectory
    if maxName < name.utf8ByteSize then throw .nameTooLong
    match entries.lookup name with
    | some (.directory _) => throw .isDirectory
    | _ => return
  | some (.file _) => throw .notDirectory
  | none => throw .notFound

end FileSystem

end CcnxPacket
