import CcnxPacket.Name
import CcnxPacket.Validation

/-!
# Messages and packet bodies

An Interest asks for the Content Object with its name; restrictions narrow the match to a publisher
key or to one exact object. A Content Object answers, and may lack a name when it can only be asked
for by its hash. A packet body is a message with or without validation.
-/

namespace CcnxPacket

/-- What the payload of a Content Object is. -/
inductive PayloadType where
  | data
  | key
  | link
deriving DecidableEq, Repr

namespace PayloadType

/-- The payload type as an octet. -/
def octet : PayloadType → UInt8
  | data => 0
  | key => 1
  | link => 2

/-- The payload type of an octet. -/
def ofOctet? (octet : UInt8) : Option PayloadType :=
  if octet = 0 then some data
  else if octet = 1 then some key
  else if octet = 2 then some link
  else none

/-- The payload type in capitals. -/
def text : PayloadType → String
  | data => "DATA"
  | key => "KEY"
  | link => "LINK"

end PayloadType

/-- A request for the Content Object with a name. -/
structure Interest where
  name : Name
  payload : Option Octets := none
  keyIdRestriction : Option UInt64 := none
  hashRestriction : Option UInt64 := none
deriving DecidableEq

/-- A piece of content. -/
structure ContentObject where
  name : Option Name := none
  payload : Option Octets := none
  payloadType : Option PayloadType := none
  /-- Milliseconds since the start of 1970 after which the object is stale. -/
  expiry : Option UInt64 := none
deriving DecidableEq

/-- A message. -/
inductive Message where
  | interest (interest : Interest)
  | contentObject (object : ContentObject)
deriving DecidableEq

/-- The element type of the message. -/
def Message.tlvType : Message → UInt16
  | .interest _ => TlvType.interest
  | .contentObject _ => TlvType.contentObject

/-- A message with or without validation. -/
structure PacketBody where
  message : Message
  validation : Option ValidationAlgorithm := none
deriving DecidableEq

/-- Whether the body carries a signature. -/
def PacketBody.isSigned (body : PacketBody) : Bool :=
  body.validation.any fun alg => alg.signature.isSome

end CcnxPacket
