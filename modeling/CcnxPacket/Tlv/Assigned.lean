import CcnxPacket.Tid

/-!
# Assigned numbers

The types that the CCNx 1.0 message format assigns to its elements, and the identifiers built from
them. Where an element stands decides what its type means, so its identifier is the path to it.

```text
3           packet body
3.1.type    Interest fields
3.2.type    Content Object fields
3.3.suite   validation algorithm
3.4         validation payload
4.type      name segments
```
-/

namespace CcnxPacket

/-! ### Element types -/

namespace TlvType

/-- An Interest message. -/
def interest : UInt16 := 0x0001
/-- A Content Object message. -/
def contentObject : UInt16 := 0x0002
/-- The section that says how a body is validated. -/
def validationAlgorithm : UInt16 := 0x0003
/-- The section that holds the signature. -/
def validationPayload : UInt16 := 0x0004

/-- The name of a message. -/
def name : UInt16 := 0x0000
/-- The payload of a message. -/
def payload : UInt16 := 0x0001
/-- The restriction of an Interest to one publisher key. -/
def keyIdRestriction : UInt16 := 0x0002
/-- The restriction of an Interest to one exact object. -/
def hashRestriction : UInt16 := 0x0003
/-- What the payload of a Content Object is. -/
def payloadType : UInt16 := 0x0005
/-- When a Content Object expires. -/
def expiry : UInt16 := 0x0006

/-- The identifier of the validating key. -/
def keyId : UInt16 := 0x0009
/-- The validating key itself. -/
def publicKey : UInt16 := 0x000B
/-- When the body was signed. -/
def signingTime : UInt16 := 0x000F

end TlvType

/-! ### Identifiers -/

namespace Tid

/-- The child named by an element's type. -/
def element (tid : Tid) (type : UInt16) : Tid := tid.child type.toUInt32

/-- Packet bodies. -/
def packetBody : Tid := root 3
/-- Interests. -/
def interest : Tid := packetBody.element TlvType.interest
/-- Content Objects. -/
def contentObject : Tid := packetBody.element TlvType.contentObject
/-- Validation algorithms. -/
def validationAlgorithm : Tid := packetBody.element TlvType.validationAlgorithm
/-- Validation payloads. -/
def validationPayload : Tid := packetBody.element TlvType.validationPayload
/-- Name segments. -/
def nameSegment : Tid := root 4

end Tid

end CcnxPacket
