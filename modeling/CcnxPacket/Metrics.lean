import CcnxPacket.Packet.Signed

/-!
# Metrics

Counters of packet bodies read and written, of their octets, of failures, of signatures and of
verifications. Counters have 64 bits and wrap. `Counted` holds the operations on packet bodies that
count what they do: each reading or writing once, whatever comes of it.
-/

namespace CcnxPacket

/-- Counters of what has been done to packet bodies. -/
structure Metrics where
  messagesEncoded : UInt64 := 0
  messagesDecoded : UInt64 := 0
  bytesEncoded : UInt64 := 0
  bytesDecoded : UInt64 := 0
  encodeErrors : UInt64 := 0
  decodeErrors : UInt64 := 0
  signaturesCreated : UInt64 := 0
  verificationsPassed : UInt64 := 0
  verificationsFailed : UInt64 := 0
deriving DecidableEq, Repr

namespace Metrics

/-- Counters of nothing done. -/
def zero : Metrics := {}

/-- Counts a packet body written. -/
def messageEncoded (m : Metrics) (size : UInt64) : Metrics :=
  { m with messagesEncoded := m.messagesEncoded + 1, bytesEncoded := m.bytesEncoded + size }

/-- Counts a packet body read. -/
def messageDecoded (m : Metrics) (size : UInt64) : Metrics :=
  { m with messagesDecoded := m.messagesDecoded + 1, bytesDecoded := m.bytesDecoded + size }

/-- Counts a failure to write. -/
def encodeError (m : Metrics) : Metrics := { m with encodeErrors := m.encodeErrors + 1 }

/-- Counts a failure to read. -/
def decodeError (m : Metrics) : Metrics := { m with decodeErrors := m.decodeErrors + 1 }

/-- Counts a signature made. -/
def signatureCreated (m : Metrics) : Metrics :=
  { m with signaturesCreated := m.signaturesCreated + 1 }

/-- Counts a verification by its outcome. -/
def verification (m : Metrics) (passed : Bool) : Metrics :=
  if passed then { m with verificationsPassed := m.verificationsPassed + 1 }
  else { m with verificationsFailed := m.verificationsFailed + 1 }

/-- Counts the outcome of reading octets of the given number. -/
def countDecoding {α : Type} (m : Metrics) (size : Nat) : Except Error α → Metrics
  | .ok _ => m.messageDecoded (UInt64.ofNat size)
  | .error _ => m.decodeError

/-- Counts the outcome of writing a packet body. -/
def countEncoding (m : Metrics) : Except Error Octets → Metrics
  | .ok octets => m.messageEncoded (UInt64.ofNat octets.length)
  | .error _ => m.encodeError

/-- Counts the outcome of making a signature. -/
def countSigning (m : Metrics) : Except Error Octets → Metrics
  | .ok _ => m.signatureCreated
  | .error _ => m

/-- Counts the outcome of a verification; one that fails to answer counts as neither. -/
def countVerification (m : Metrics) : Except Error Bool → Metrics
  | .ok passed => m.verification passed
  | .error _ => m

end Metrics

/-- An operation that counts what it does and may fail; a failure keeps the counts. -/
abbrev Counted (α : Type) : Type := ExceptT Error (StateM Metrics) α

namespace Counted

variable {F : Type} [FieldFormat F]

/-- The result of an operation, and the counters after it. -/
def run {α : Type} (operation : Counted α) (m : Metrics) : Except Error α × Metrics :=
  StateT.run (ExceptT.run operation) m

/-- Counts a result and returns it. -/
def settle {α : Type} (count : Metrics → Except Error α → Metrics) (result : Except Error α) :
    Counted α := do
  modify fun m => count m result
  ExceptT.mk (pure result)

/-- Reads a packet body. -/
def decode (codec : PacketCodec F) (octets : Octets) : Counted DecodedBody :=
  settle (fun m result => m.countDecoding octets.length result) (codec.decode octets)

/-- Reads a packet body without asking which octets its signature covers. -/
def decodeBody (codec : PacketCodec F) (octets : Octets) : Counted PacketBody := do
  let decoded ← decode codec octets
  return decoded.body

/-- Reads a packet body for the octets that its signature covers. -/
def protectedRegion (codec : PacketCodec F) (octets : Octets) : Counted Octets := do
  let decoded ← decode codec octets
  return octets.take decoded.protectedSize

/-- Writes a packet body. -/
def encode (codec : PacketCodec F) (body : PacketBody) : Counted Octets :=
  settle Metrics.countEncoding (codec.encode body)

/-- Writes and signs a packet body at the time that a clock shows. -/
def encodeSigned (codec : PacketCodec F) (clock : Except SigningFlaw UInt64) (message : Message)
    (signer : SignatureMaker) : Counted Octets :=
  settle (fun m result => (m.countSigning result).countEncoding result)
    (codec.encodeSignedBy clock message signer)

/-- Reads a packet body and checks its signature. -/
def verify (codec : PacketCodec F) (octets : Octets) (verifier : SignatureChecker) :
    Counted Bool := do
  let decoded ← decode codec octets
  settle Metrics.countVerification (PacketCodec.verifyDecoded octets decoded verifier)

end Counted

end CcnxPacket
