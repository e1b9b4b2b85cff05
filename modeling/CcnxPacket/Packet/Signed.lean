import CcnxPacket.Crypto.Signer
import CcnxPacket.Crypto.Verifier
import CcnxPacket.Packet.Codec

/-!
# Signed packet bodies

To sign a message, it is written with the validation algorithm of the signer, the digest of these
octets is signed, and the signature follows as the validation payload. To verify a packet body, it
is read and its signature is checked against the digest of the octets before the validation payload.
-/

namespace CcnxPacket.PacketCodec

variable {F : Type} [FieldFormat F]

/-- Writes a message and its validation algorithm, which together are what a signature covers. -/
def encodeProtected (codec : PacketCodec F) (message : Message) (alg : ValidationAlgorithm) :
    Writer Unit := do
  let _ ← message.encode codec.registry
  codec.encodeAlgorithm alg

/-- Writes a message with its validation, the signature being made from what is already written. -/
def encodeSigning (codec : PacketCodec F) (message : Message) (alg : ValidationAlgorithm)
    (signer : SignatureMaker) : Writer Unit := do
  codec.encodeProtected message alg
  let out ← get
  let signature ← signer.sign (signer.hash.digest out.octets)
  codec.encodeSignature signature

/-- The octets of a message signed at the given time, which they hold if the codec includes it. -/
def encodeSigned (codec : PacketCodec F) (now : UInt64) (message : Message)
    (signer : SignatureMaker) : Except Error Octets := do
  let signingTime := if codec.includeSigningTime then some now else none
  let alg ← signer.validationAlgorithm codec.embedPublicKey signingTime
  codec.withinLimit (← (codec.encodeSigning message alg signer).toOctets)

/-- The octets of a message signed at the time that a clock shows. A clock that shows none is a
failure, unless the codec leaves the time out and does not look at it. -/
def encodeSignedBy (codec : PacketCodec F) (clock : Except SigningFlaw UInt64) (message : Message)
    (signer : SignatureMaker) : Except Error Octets :=
  match clock with
  | .ok now => codec.encodeSigned now message signer
  | .error flaw =>
    if codec.includeSigningTime then .error (.signingFailure flaw)
    else codec.encodeSigned 0 message signer

/-- Whether the signature of a decoded body matches the octets it covers. -/
def verifyDecoded (octets : Octets) (decoded : DecodedBody) (verifier : SignatureChecker) :
    Except Error Bool :=
  match decoded.body.validation with
  | none => .ok false
  | some alg =>
    match alg.signature with
    | none => .ok false
    | some signature =>
      let digest := verifier.hash.digest (octets.take decoded.protectedSize)
      verifier.check alg.keyId digest alg.suite signature

/-- Whether octets are a packet body with a signature that the verifier accepts. Octets that are no
packet body are an error. -/
def verify (codec : PacketCodec F) (octets : Octets) (verifier : SignatureChecker) :
    Except Error Bool := do
  verifyDecoded octets (← codec.decode octets) verifier

end CcnxPacket.PacketCodec
