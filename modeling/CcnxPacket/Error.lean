import CcnxPacket.Suite

/-!
# Errors

One type holds every way an operation of the library can fail. A constructor is a cause;
`Error.message` words it, `Error.offset?` says where in the decoded octets it lies and `Error.tid?`
which element it concerns.
-/

namespace CcnxPacket

/-- What is wrong with the text of a type identifier. -/
inductive TidFlaw where
  | empty
  | emptyComponent
  | notNumeric
  | overflow
deriving DecidableEq, Repr

/-- What is wrong with the text of a type identifier, in words. -/
def TidFlaw.message : TidFlaw → String
  | empty => "type identifier is empty"
  | emptyComponent => "empty component"
  | notNumeric => "component is not a non-negative decimal integer"
  | overflow => "component does not fit in 32 bits"

/-- Which length a value breaks. -/
inductive LengthFlaw where
  | hashTooShort
  | payloadTypeNotOne
  | timestampNotEight
  | suiteUnderrun
deriving DecidableEq, Repr

/-- Which length a value breaks, in words. -/
def LengthFlaw.message : LengthFlaw → String
  | hashTooShort => "hash value must be at least 8 bytes"
  | payloadTypeNotOne => "payload type must be exactly 1 byte"
  | timestampNotEight => "timestamp must be exactly 8 bytes"
  | suiteUnderrun => "crypto suite is shorter than its validation algorithm section"

/-- What is wrong with the content of a field. -/
inductive FieldFlaw where
  | unknownPayloadType
  | keyIdNotAllowed
  | keyIdRequired
  | publicKeyNotAllowed
  | payloadWithoutAlgorithm
  | algorithmWithoutPayload
deriving DecidableEq, Repr

/-- What is wrong with the content of a field, in words. -/
def FieldFlaw.message : FieldFlaw → String
  | unknownPayloadType => "unknown payload type"
  | keyIdNotAllowed => "crypto suite does not carry a KeyId"
  | keyIdRequired => "public key crypto suite requires a KeyId"
  | publicKeyNotAllowed => "crypto suite does not carry a public key"
  | payloadWithoutAlgorithm => "validation payload without validation algorithm"
  | algorithmWithoutPayload => "validation algorithm without validation payload"

/-- Why a key cannot be used. -/
inductive KeyFlaw where
  | keylessSuite
  | wrongKind
  | badEncoding
  | emptySecret
deriving DecidableEq, Repr

/-- Why a key cannot be used, in words. -/
def KeyFlaw.message : KeyFlaw → String
  | keylessSuite => "CRC32C validation does not use keys"
  | wrongKind => "key kind does not match the crypto suite"
  | badEncoding => "key bytes are not a valid encoding for the crypto suite"
  | emptySecret => "symmetric key must not be empty"

/-- Why no signature or signing key could be made, or no time of signing told. -/
inductive SigningFlaw where
  | tooFewPrimes
  | messageTooLong
  | zeroScalar
  | clockBeforeEpoch
deriving DecidableEq, Repr

/-- Why no signature or signing key could be made, in words. -/
def SigningFlaw.message : SigningFlaw → String
  | tooFewPrimes => "too few primes of given length to generate an RSA key"
  | messageTooLong => "message too long"
  | zeroScalar => "signature error"
  | clockBeforeEpoch => "System time is before UNIX_EPOCH"

/-- Why the file system refused a path. -/
inductive FileFlaw where
  | notFound
  | notDirectory
  | isDirectory
  | nameTooLong
  | nulInName
deriving DecidableEq, Repr

/-- Why the file system refused a path, in the words of the operating system. -/
def FileFlaw.message : FileFlaw → String
  | notFound => "No such file or directory (os error 2)"
  | notDirectory => "Not a directory (os error 20)"
  | isDirectory => "Is a directory (os error 21)"
  | nameTooLong => "File name too long (os error 36)"
  | nulInName => "file name contained an unexpected NUL byte"

/-- What is wrong with a configuration, or with the place it comes from or goes to. -/
inductive ConfigFlaw where
  | unreadable (path : String) (cause : FileFlaw)
  | unwritable (cause : FileFlaw)
  | malformed
  | unserializable
  | environment (name value : String)
  | policyEnvironment (value : String)
  | problems (found : List String)
  | logFile (path : String) (cause : FileFlaw)
  | logPathMissing
deriving DecidableEq, Repr

/-- What is wrong with a configuration, in words. -/
def ConfigFlaw.message : ConfigFlaw → String
  | unreadable path cause => s!"Cannot read config file {path}: {cause.message}"
  | unwritable cause => s!"Cannot write config file: {cause.message}"
  | malformed => "Invalid codec config"
  | unserializable => "Cannot serialize codec config"
  | environment name value => s!"Invalid {name}: '{value}'"
  | policyEnvironment value =>
    s!"Invalid CCNX_CODEC_DUPLICATE_POLICY: '{value}' (expected 'reject' or 'keep_first')"
  | problems found => "invalid codec config:\n  - " ++ String.intercalate "\n  - " found
  | logFile path cause => s!"Failed to open log file '{path}': {cause.message}"
  | logPathMissing => "log_file_path must be specified when log_to_file is true"

/-- Every way an operation of the library can fail. -/
inductive Error where
  | malformedTid (input : String) (flaw : TidFlaw)
  | indexOutOfRange (index size : Nat)
  | duplicateRegistration (tid : Tid)
  | registryFrozen (tid : Tid)
  | unknownType (tid : Tid)
  | truncatedInput (offset needed available : Nat)
  | lengthOverflow (tid : Tid) (offset containerLength : Nat)
  | unknownField (tid : Tid) (offset : Nat)
  | duplicateField (tid : Tid) (offset : Nat)
  | missingMandatoryField (tid : Tid)
  | typeMismatch (codec found : String)
  | wrongMessageType (expected found : UInt16) (offset : Nat)
  | invalidFieldLength (tid : Tid) (length : Nat) (flaw : LengthFlaw)
  | invalidField (tid : Tid) (flaw : FieldFlaw)
  | trailingBytes (offset count : Nat)
  | messageTooLarge (size limit : Nat)
  | invalidDigestLength (suite : Suite) (expected actual : Nat)
  | unsupportedSuite (suite : Suite)
  | unknownSuite (type : UInt16)
  | invalidKey (flaw : KeyFlaw)
  | signingFailure (flaw : SigningFlaw)
  | config (flaw : ConfigFlaw)
deriving DecidableEq

namespace Error

/-- The error in words. -/
def message : Error → String
  | malformedTid input flaw => s!"Malformed type identifier '{input}': {flaw.message}"
  | indexOutOfRange index size =>
    s!"Component index {index} out of range for type identifier of size {size}"
  | duplicateRegistration tid => s!"Codec already registered for {tid.text}"
  | registryFrozen tid => s!"Codec registry is frozen, cannot register {tid.text}"
  | unknownType tid => s!"No codec registered for {tid.text}"
  | truncatedInput offset needed available =>
    s!"Truncated input at offset {offset}: need {needed} bytes, {available} available"
  | lengthOverflow tid offset containerLength =>
    s!"Field {tid.text} at offset {offset} ends past its container (container length {containerLength})"
  | unknownField tid offset => s!"Unknown field {tid.text} at offset {offset}"
  | duplicateField tid offset => s!"Duplicate field {tid.text} at offset {offset}"
  | missingMandatoryField tid => s!"Missing mandatory field {tid.text}"
  | typeMismatch codec found => s!"Type mismatch: codec {codec} cannot handle a {found} field"
  | wrongMessageType expected found offset =>
    let expected := hexNumber 4 expected.toNat
    let found := hexNumber 4 found.toNat
    s!"Wrong message type {found} at offset {offset}, expected {expected}"
  | invalidFieldLength tid length flaw => s!"Invalid length {length} for {tid.text}: {flaw.message}"
  | invalidField tid flaw => s!"Invalid field {tid.text}: {flaw.message}"
  | trailingBytes offset count => s!"{count} trailing bytes at offset {offset}"
  | messageTooLarge size limit => s!"Message too large: {size} bytes (limit {limit})"
  | invalidDigestLength suite expected actual =>
    s!"Invalid digest length {actual} for {suite.text}, expected {expected}"
  | unsupportedSuite suite => s!"Unsupported crypto suite: {suite.text}"
  | unknownSuite type =>
    let type := hexNumber 4 type.toNat
    s!"Unknown crypto suite type {type}"
  | invalidKey flaw => s!"Invalid key: {flaw.message}"
  | signingFailure flaw => s!"Signing failed: {flaw.message}"
  | config flaw => s!"Configuration error: {flaw.message}"

/-- Where the failure lies in the decoded octets, when that is known. -/
def offset? : Error → Option Nat
  | truncatedInput offset _ _ | lengthOverflow _ offset _ | unknownField _ offset
  | duplicateField _ offset | wrongMessageType _ _ offset | trailingBytes offset _ => some offset
  | _ => none

/-- The element that the failure concerns, when that is known. -/
def tid? : Error → Option Tid
  | duplicateRegistration tid | registryFrozen tid | unknownType tid | missingMandatoryField tid
  | lengthOverflow tid _ _ | unknownField tid _ | duplicateField tid _
  | invalidFieldLength tid _ _ | invalidField tid _ => some tid
  | _ => none

end Error

end CcnxPacket
