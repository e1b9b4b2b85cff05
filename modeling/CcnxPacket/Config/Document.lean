import CcnxPacket.Config
import CcnxPacket.Toml.Document
import CcnxPacket.Toml.Quoted

/-!
# Configuration documents

A configuration is kept as a TOML document with a table for each section. In reading, sections may
be missing, and so may keys, except that a logging section names everything but its file. Keys that
no section has are passed over. A section may also be an array of its values in order.
-/

namespace CcnxPacket

open Toml

/-! ### Reading -/

/-- The fields of a section: by key, or in order. -/
inductive Record where
  | keyed (entries : Entries)
  | ordered (members : List Value)

namespace Record

/-- The fields that a value holds; a date holds none that a section has. -/
def ofValue? : Value → Option Record
  | .table entries => some (keyed entries)
  | .array members => some (ordered members)
  | .date => some (keyed [])
  | _ => none

/-- The value of a field with its place in order and its key. -/
def get? (record : Record) (place : Nat) (key : String) : Option Value :=
  match record with
  | keyed entries => entries.lookup key
  | ordered members => members[place]?

/-- A field that has a default. -/
def getD {α : Type} (record : Record) (place : Nat) (key : String) (read : Value → Option α)
    (default : α) : Option α :=
  match record.get? place key with
  | none => some default
  | some value => read value

/-- A field that has to be there. -/
def require {α : Type} (record : Record) (place : Nat) (key : String) (read : Value → Option α) :
    Option α :=
  record.get? place key >>= read

end Record

/-- The string that a value is. -/
def readString : Value → Option String
  | .string text => some text
  | _ => none

/-- The truth value that a value is. -/
def readBool : Value → Option Bool
  | .boolean b => some b
  | _ => none

/-- The non-negative number that a value is. -/
def readSize : Value → Option Nat
  | .integer n => n.toNat?
  | _ => none

/-- The level that a value names. -/
def readLevel (value : Value) : Option LogLevel := readString value >>= LogLevel.parse?

/-- Whether a value is an array or a table without members. -/
def isEmptyCollection : Value → Bool
  | .array [] => true
  | .table [] => true
  | _ => false

/-- The policy that a value names: a string, or a table whose one key is the name. -/
def readPolicy : Value → Option DuplicatePolicy
  | .string text => DuplicatePolicy.ofText? text
  | .table [(text, value)] =>
    if isEmptyCollection value then DuplicatePolicy.ofText? text else none
  | _ => none

/-- Reads the settings of registries. -/
def RegistrySection.ofValue (value : Value) : Option RegistrySection := do
  let record ← Record.ofValue? value
  let default : RegistrySection := {}
  return {
    duplicatePolicy := ← record.getD 0 "duplicate_policy" readPolicy default.duplicatePolicy
    freezeAfterInit := ← record.getD 1 "freeze_after_init" readBool default.freezeAfterInit }

/-- Reads the settings of sizes. -/
def LimitsSection.ofValue (value : Value) : Option LimitsSection := do
  let record ← Record.ofValue? value
  let default : LimitsSection := {}
  return {
    maxMessageSize := ← record.getD 0 "max_message_size" readSize default.maxMessageSize }

/-- Reads the settings of signatures. -/
def SigningSection.ofValue (value : Value) : Option SigningSection := do
  let record ← Record.ofValue? value
  let default : SigningSection := {}
  return {
    embedPublicKey := ← record.getD 0 "embed_public_key" readBool default.embedPublicKey
    includeSigningTime :=
      ← record.getD 1 "include_signing_time" readBool default.includeSigningTime }

/-- Reads the settings of the log. Only the path of the file may be missing. -/
def LoggingSection.ofValue (value : Value) : Option LoggingSection := do
  let record ← Record.ofValue? value
  return {
    appName := ← record.require 0 "app_name" readString
    logLevel := ← record.require 1 "log_level" readLevel
    logToConsole := ← record.require 2 "log_to_console" readBool
    logToFile := ← record.require 3 "log_to_file" readBool
    logFilePath := ← record.getD 4 "log_file_path" (fun value => (readString value).map some) none
    jsonFormat := ← record.require 5 "json_format" readBool }

namespace Config

/-- A section of a document, or its default. -/
def readSection {α : Type} (entries : Entries) (key : String) (read : Value → Option α)
    (default : α) : Option α :=
  (Record.keyed entries).getD 0 key read default

/-- Reads a configuration from the entries of a document. -/
def ofEntries (entries : Entries) : Option Config := do
  return {
    registry := ← readSection entries "registry" RegistrySection.ofValue {}
    limits := ← readSection entries "limits" LimitsSection.ofValue {}
    signing := ← readSection entries "signing" SigningSection.ofValue {}
    logging := ← readSection entries "logging" LoggingSection.ofValue {} }

/-- Reads a configuration from the text of a document. -/
def ofText (text : String) : Except Error Config :=
  match Toml.parse text >>= ofEntries with
  | some config => .ok config
  | none => .error (.config .malformed)

/-- Reads a configuration from a file. -/
def ofFile (fs : FileSystem) (path : String) : Except Error Config := do
  let text ← (fs.read path).mapError fun cause => .config (.unreadable path cause)
  ofText text

/-! ### Writing -/

/-- A key with a value. -/
def entryLine (key value : String) : String := key ++ " = " ++ value ++ "\n"

/-- A key with a truth value. -/
def boolLine (key : String) (b : Bool) : String := entryLine key (if b then "true" else "false")

/-- A section with its lines. -/
def sectionText (name : String) (lines : List String) : String :=
  "[" ++ name ++ "]\n" ++ String.join lines

/-- The document of a configuration. -/
def document (config : Config) : String :=
  let { registry, limits, signing, logging } := config
  String.intercalate "\n"
    [ sectionText "registry"
        [ entryLine "duplicate_policy" (quoted registry.duplicatePolicy.text),
          boolLine "freeze_after_init" registry.freezeAfterInit ],
      sectionText "limits" [entryLine "max_message_size" (toString limits.maxMessageSize)],
      sectionText "signing"
        [ boolLine "embed_public_key" signing.embedPublicKey,
          boolLine "include_signing_time" signing.includeSigningTime ],
      sectionText "logging"
        ([ entryLine "app_name" (quoted logging.appName),
           entryLine "log_level" (quoted logging.logLevel.text),
           boolLine "log_to_console" logging.logToConsole,
           boolLine "log_to_file" logging.logToFile ]
          ++ (logging.logFilePath.map fun path => entryLine "log_file_path" (quoted path)).toList
          ++ [boolLine "json_format" logging.jsonFormat]) ]

/-- The document of a configuration, unless it has a number that documents cannot hold. -/
def toText (config : Config) : Except Error String :=
  if config.limits.maxMessageSize < integerBound then .ok config.document
  else .error (.config .unserializable)

/-- The text to be written to a file at the path. -/
def save (fs : FileSystem) (config : Config) (path : String) : Except Error String := do
  let text ← config.toText
  (fs.checkWritable path).mapError fun cause => .config (.unwritable cause)
  return text

/-- The document of the default configuration. -/
def exampleText : String := document {}

end Config

end CcnxPacket
