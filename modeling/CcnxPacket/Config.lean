import CcnxPacket.FileSystem
import CcnxPacket.Packet.Codec
import CcnxPacket.Text.Numeral

/-!
# Configurations

A configuration has a section each for the registry, the size limits, signing and logging. Not every
configuration makes sense: `problems` lists what is wrong with one, and for the file that the log
goes to it asks the file system whether its directory is there.
-/

namespace CcnxPacket

/-- How much is logged. -/
inductive LogLevel where
  | error
  | warn
  | info
  | debug
  | trace
deriving DecidableEq, Repr

namespace LogLevel

/-- The level in lower case. -/
def text : LogLevel → String
  | error => "error"
  | warn => "warn"
  | info => "info"
  | debug => "debug"
  | trace => "trace"

/-- Every level, from the one that logs least to the one that logs most. -/
def all : List LogLevel := [error, warn, info, debug, trace]

/-- The level that a text names, in letters of any case or by its number counted from one. -/
def parse? (text : String) : Option LogLevel :=
  match Text.natural? UInt64.size text.toList with
  | some number => if number = 0 then none else all[number - 1]?
  | none => all.find? fun level => level.text == Text.lowercase text

end LogLevel

/-- Settings of registries. -/
structure RegistrySection where
  duplicatePolicy : DuplicatePolicy := .reject
  freezeAfterInit : Bool := true
deriving DecidableEq, Repr

/-- Settings of sizes. -/
structure LimitsSection where
  maxMessageSize : Nat := defaultLimit
deriving DecidableEq, Repr

/-- Settings of signatures. -/
structure SigningSection where
  embedPublicKey : Bool := true
  includeSigningTime : Bool := true
deriving DecidableEq, Repr

/-- Settings of the log. -/
structure LoggingSection where
  appName : String := "ccnx-codec"
  logLevel : LogLevel := .info
  logToConsole : Bool := true
  logToFile : Bool := false
  logFilePath : Option String := none
  jsonFormat : Bool := false
deriving DecidableEq, Repr

/-- A configuration. -/
structure Config where
  registry : RegistrySection := {}
  limits : LimitsSection := {}
  signing : SigningSection := {}
  logging : LoggingSection := {}
deriving DecidableEq, Repr

/-! ### Use -/

/-- The registry that the settings ask for. -/
def RegistrySection.toRegistry (settings : RegistrySection) : Except Error Registry := do
  let registry ← Registry.standard settings.duplicatePolicy
  return if settings.freezeAfterInit then registry.freeze else registry

/-- The codec that the configuration asks for, with the formats of the given registry. -/
def Config.toCodec {F : Type} (config : Config) (registry : Registry F) : PacketCodec F :=
  { registry
    limit := config.limits.maxMessageSize
    embedPublicKey := config.signing.embedPublicKey
    includeSigningTime := config.signing.includeSigningTime }

/-! ### Problems -/

/-- What is wrong with the limits. -/
def LimitsSection.problems (limits : LimitsSection) : List String :=
  let size := limits.maxMessageSize
  if size < Header.width then
    [s!"Max message size too small: {size} bytes (minimum: {Header.width})"]
  else if largestBody < size then
    [s!"Max message size {size} exceeds the largest encodable body ({largestBody} bytes)"]
  else []

namespace LoggingSection

/-- The longest application name, in octets. -/
def maxAppName : Nat := 64

/-- What is wrong with the application name. -/
def appNameProblems (logging : LoggingSection) : List String :=
  let size := logging.appName.utf8ByteSize
  if size = 0 then ["Logging app_name cannot be empty"]
  else if maxAppName < size then
    [s!"Logging app_name is {size} characters (maximum: {maxAppName})"]
  else []

/-- The directory that has to be there for a file at the path to be made. -/
def directoryOf? (path : String) : Option String :=
  (Path.parent? path).filter fun directory => !directory.isEmpty

/-- What is wrong with the file that the log goes to. -/
def fileProblems (fs : FileSystem) (logging : LoggingSection) : List String :=
  if !logging.logToFile then []
  else
    match logging.logFilePath with
    | none => [ConfigFlaw.logPathMissing.message]
    | some path =>
      match directoryOf? path with
      | none => []
      | some directory =>
        if fs.contains directory then [] else [s!"Log directory {directory} does not exist"]

/-- What is wrong with where the log goes. -/
def outputProblems (logging : LoggingSection) : List String :=
  if logging.logToConsole || logging.logToFile then []
  else ["At least one logging output must be enabled (console or file)"]

/-- What is wrong with the settings of the log. -/
def problems (fs : FileSystem) (logging : LoggingSection) : List String :=
  logging.appNameProblems ++ logging.fileProblems fs ++ logging.outputProblems

/-- Opens what the log goes to: the file if there is to be one, else the console. -/
def openOutput (fs : FileSystem) (logging : LoggingSection) : Except Error Unit :=
  if !logging.logToFile then .ok ()
  else
    match logging.logFilePath with
    | none => .error (.config .logPathMissing)
    | some path => (fs.checkWritable path).mapError fun cause => .config (.logFile path cause)

end LoggingSection

namespace Config

/-- Everything that is wrong with the configuration. -/
def problems (fs : FileSystem) (config : Config) : List String :=
  config.limits.problems ++ config.logging.problems fs

/-- Fails when anything is wrong with the configuration. -/
def check (fs : FileSystem) (config : Config) : Except Error Unit :=
  match config.problems fs with
  | [] => .ok ()
  | found => .error (.config (.problems found))

end Config

end CcnxPacket
