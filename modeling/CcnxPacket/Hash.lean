import CcnxPacket.Hash.Crc32c
import CcnxPacket.Hash.Sha2
import CcnxPacket.Error

/-!
# Digests

The functions that reduce the protected octets of a packet body to a digest of fixed size, and the
message authentication code built from them.
-/

namespace CcnxPacket

/-- A function from octets to a digest of fixed size. -/
inductive HashFunction where
  | crc32c
  | sha256
  | sha384
deriving DecidableEq, Repr

namespace HashFunction

/-- The digest of the octets. -/
def digest : HashFunction → Octets → Octets
  | crc32c => Crc32c.digest
  | sha256 => Sha2.sha256
  | sha384 => Sha2.sha384

/-- The octets of a digest. -/
def size : HashFunction → Nat
  | crc32c => 4
  | sha256 => 32
  | sha384 => 48

/-- The octets of the blocks in which the function works. -/
def blockSize : HashFunction → Nat
  | crc32c => 1
  | sha256 => 64
  | sha384 => 128

/-- The name of the function. -/
def text : HashFunction → String
  | crc32c => "CRC32C"
  | sha256 => "SHA-256"
  | sha384 => "SHA-384"

@[simp] theorem length_digest (hash : HashFunction) (octets : Octets) :
    (hash.digest octets).length = hash.size := by
  cases hash <;> simp [digest, size, Crc32c.digest]

/-- A digest of this function, or of another one with digests of the same size. -/
def checkDigest (hash : HashFunction) (suite : Suite) (digest : Octets) : Except Error Unit :=
  if digest.length = hash.size then .ok ()
  else .error (.invalidDigestLength suite hash.size digest.length)

/-- The key of the keyed hash, brought to the size of a block. -/
def blockKey (hash : HashFunction) (key : Octets) : Octets :=
  let short := if hash.blockSize < key.length then hash.digest key else key
  short ++ List.replicate (hash.blockSize - short.length) 0

/-- The keyed-hash message authentication code (HMAC) of the message. -/
def mac (hash : HashFunction) (key message : Octets) : Octets :=
  let key := hash.blockKey key
  let inner := hash.digest (key.map (· ^^^ 0x36) ++ message)
  hash.digest (key.map (· ^^^ 0x5C) ++ inner)

end HashFunction

end CcnxPacket
