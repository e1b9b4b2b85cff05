import CcnxPacket.Config

/-!
# Configuration by environment variables

Variables override single keys of the default configuration. They are looked at in a fixed order,
and the first one with an unusable value is reported.
-/

namespace CcnxPacket.Config

/-- Names of variables with their values. -/
abbrev Environment := List (String × String)

/-- The value of a variable that white space may surround, or a default when it is not set. -/
def variableOr {α : Type} (environment : Environment) (name : String)
    (read : List Char → Option α) (default : α) : Except Error α :=
  match environment.lookup name with
  | none => .ok default
  | some value =>
    match read (Text.trim value.toList) with
    | some setting => .ok setting
    | none => .error (.config (.environment name value))

/-- The policy that a variable names in letters of any case. -/
def policyOr (environment : Environment) (default : DuplicatePolicy) :
    Except Error DuplicatePolicy :=
  match environment.lookup "CCNX_CODEC_DUPLICATE_POLICY" with
  | none => .ok default
  | some value =>
    let value := Text.lowercase value
    match DuplicatePolicy.ofText? value with
    | some policy => .ok policy
    | none => .error (.config (.policyEnvironment value))

/-- The level that a variable names. -/
def levelOr (environment : Environment) (default : LogLevel) : Except Error LogLevel :=
  let name := "CCNX_CODEC_LOG_LEVEL"
  match environment.lookup name with
  | none => .ok default
  | some value =>
    match LogLevel.parse? value with
    | some level => .ok level
    | none => .error (.config (.environment name value))

/-- The default configuration with the settings of the environment. -/
def ofEnvironment (environment : Environment) : Except Error Config := do
  let base : Config := {}
  let duplicatePolicy ← policyOr environment base.registry.duplicatePolicy
  let freezeAfterInit ←
    variableOr environment "CCNX_CODEC_FREEZE_AFTER_INIT" Text.truth? base.registry.freezeAfterInit
  let maxMessageSize ←
    variableOr environment "CCNX_CODEC_MAX_MESSAGE_SIZE" (Text.natural? UInt64.size)
      base.limits.maxMessageSize
  let embedPublicKey ←
    variableOr environment "CCNX_CODEC_EMBED_PUBLIC_KEY" Text.truth? base.signing.embedPublicKey
  let includeSigningTime ←
    variableOr environment "CCNX_CODEC_INCLUDE_SIGNING_TIME" Text.truth?
      base.signing.includeSigningTime
  let logLevel ← levelOr environment base.logging.logLevel
  return {
    registry := { duplicatePolicy, freezeAfterInit }
    limits := { maxMessageSize }
    signing := { embedPublicKey, includeSigningTime }
    logging := { base.logging with logLevel } }

end CcnxPacket.Config
