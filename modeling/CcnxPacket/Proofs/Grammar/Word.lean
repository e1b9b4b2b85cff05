import CcnxPacket.Packet.Codec
import CcnxPacket.Proofs.Element

/-!
# The grammar of packet bodies

Which octets are a packet body, and which body they are, by the numbers of the format alone. There
is no reader here: a word is said to be a sequence of elements, and each element's value is said to
be a sequence of elements or a plain value in its turn.

```text
body       message | message  3[ suite ]  4[ signature ]
message    1[ fields ] | 2[ fields ]
fields     distinct types out of 0 1 2 3, with 0, in type 1; out of 0 1 5 6 in type 2
name       0[ segments ], of types 1 2 10 13 1000 1001 1002 1003 (hexadecimal)
suite      s[ parts ], s one of 2 4 5 6 7 8, distinct types out of 9 11 15
```
-/

namespace CcnxPacket.Grammar

/-! ### Numbers of the format -/

/-- The types of name segments. -/
def segmentTypes : List (UInt16 × SegmentKind) :=
  [(0x0001, .name), (0x0002, .ipid), (0x0010, .chunk), (0x0013, .version),
    (0x1000, .app 0), (0x1001, .app 1), (0x1002, .app 2), (0x1003, .app 3)]

/-- The octets of payload types. -/
def payloadTypes : List (UInt8 × PayloadType) := [(0, .data), (1, .key), (2, .link)]

/-- The types of the elements of suites. -/
def suiteTypes : List (UInt16 × Suite) :=
  [(2, .crc32c), (4, .hmacSha256), (5, .vmac128), (6, .rsaSha256), (7, .ecSecp256k1),
    (8, .ecSecp384r1)]

/-! ### Values -/

def IsOctets (e : Element) (octets : Octets) : Prop := e.value = octets

def IsSegment (e : Element) (segment : Segment) : Prop :=
  (e.type, segment.kind) ∈ segmentTypes ∧ e.value = segment.value

/-- The value is one element for each segment of the name. -/
def IsName (e : Element) (name : Name) : Prop :=
  ∃ es, e.value = Element.concat es ∧ List.Forall₂ IsSegment es name.segments

/-- The value starts with the eight octets of the number, whatever follows them. -/
def IsHash (e : Element) (number : UInt64) : Prop :=
  8 ≤ e.value.length ∧ ofBigEndian (e.value.take 8) = number.toNat

def IsPayloadType (e : Element) (type : PayloadType) : Prop :=
  ∃ octet, (octet, type) ∈ payloadTypes ∧ e.value = [octet]

/-- The value is the eight octets of the number. -/
def IsTime (e : Element) (number : UInt64) : Prop :=
  e.value.length = 8 ∧ ofBigEndian e.value = number.toNat

/-! ### Sequences of elements -/

/-- The element of the given type has the value as its meaning; without a value there is none. -/
def Says {α : Type} (es : List Element) (type : UInt16) (means : Element → α → Prop) :
    Option α → Prop
  | none => ∀ e ∈ es, e.type ≠ type
  | some value => ∃ e ∈ es, e.type = type ∧ means e value

/-- The element's value is exactly the given elements, whose types are distinct and among the given
ones. -/
structure Holds (types : List UInt16) (e : Element) (es : List Element) : Prop where
  value : e.value = Element.concat es
  distinct : (es.map Element.type).Nodup
  known : ∀ inner ∈ es, inner.type ∈ types

structure IsInterest (e : Element) (interest : Interest) (es : List Element) : Prop where
  type : e.type = 1
  holds : Holds [0, 1, 2, 3] e es
  name : Says es 0 IsName (some interest.name)
  payload : Says es 1 IsOctets interest.payload
  keyIdRestriction : Says es 2 IsHash interest.keyIdRestriction
  hashRestriction : Says es 3 IsHash interest.hashRestriction

structure IsContentObject (e : Element) (object : ContentObject) (es : List Element) : Prop where
  type : e.type = 2
  holds : Holds [0, 1, 5, 6] e es
  name : Says es 0 IsName object.name
  payload : Says es 1 IsOctets object.payload
  payloadType : Says es 5 IsPayloadType object.payloadType
  expiry : Says es 6 IsTime object.expiry

inductive IsMessage (e : Element) : Message → Prop where
  | interest {interest : Interest} {es : List Element} (fields : IsInterest e interest es) :
      IsMessage e (.interest interest)
  | contentObject {object : ContentObject} {es : List Element}
      (fields : IsContentObject e object es) :
      IsMessage e (.contentObject object)

/-- What a suite allows and demands: checksums have no key, symmetric suites have no public key, and
public key suites name theirs. -/
def Fits : Suite → (keyId publicKey : Option Octets) → Prop
  | .crc32c, keyId, publicKey => keyId = none ∧ publicKey = none
  | .hmacSha256, _, publicKey | .vmac128, _, publicKey => publicKey = none
  | .rsaSha256, keyId, _ | .ecSecp256k1, keyId, _ | .ecSecp384r1, keyId, _ => keyId ≠ none

/-- The element is that of a suite, and its parts are all that the algorithm carries. -/
structure IsAlgorithm (e : Element) (alg : ValidationAlgorithm) (es : List Element) : Prop where
  suite : (e.type, alg.suite) ∈ suiteTypes
  holds : Holds [9, 11, 15] e es
  keyId : Says es 9 IsOctets alg.keyId
  publicKey : Says es 11 IsOctets alg.publicKey
  signingTime : Says es 15 IsTime alg.signingTime
  fits : Fits alg.suite alg.keyId alg.publicKey
  unsigned : alg.signature = none

/-- The octets are a word of the grammar, and the body with the number of octets that its signature
covers is what they say. -/
inductive Word : Octets → DecodedBody → Prop where
  | unsigned {octets : Octets} {e : Element} {message : Message} (framing : octets = e.octets)
      (said : IsMessage e message) :
      Word octets { body := { message }, protectedSize := octets.length }
  | signed {octets : Octets} {e part inner payload : Element} {es : List Element}
      {message : Message} {alg : ValidationAlgorithm} {signature : Octets}
      (framing : octets = e.octets ++ part.octets ++ payload.octets)
      (said : IsMessage e message)
      (partType : part.type = 3) (partValue : part.value = inner.octets)
      (algorithm : IsAlgorithm inner alg es)
      (payloadType : payload.type = 4) (payloadValue : payload.value = signature) :
      Word octets
        { body := { message, validation := some { alg with signature := some signature } }
          protectedSize := octets.length - 4 - signature.length }

end CcnxPacket.Grammar
