import CcnxPacket.Crypto.Scheme

/-!
# Verifiers

A verifier is a scheme with a store of verifying keys. It only answers whether a signature matches a
digest under a key that it holds; which keys to trust is for its user to decide.

Packet bodies can be checked by anything that answers this question, a `SignatureChecker`.
-/

namespace CcnxPacket

/-- What a packet body is checked with. -/
structure SignatureChecker where
  /-- The function whose digest is signed. -/
  hash : HashFunction
  /-- Whether a signature made by the given suite matches the digest, by the key with the identifier
  if there is one. -/
  check : (keyId : Option Octets) → (digest : Octets) → Suite → (signature : Octets) →
    Except Error Bool

/-- A scheme with the keys that signatures are checked with. -/
structure Verifier where
  scheme : Scheme
  keys : KeyStore scheme.VerifyingKey

namespace Verifier

/-- The verifier of a scheme that holds no keys yet. -/
def ofScheme (scheme : Scheme) : Verifier := { scheme, keys := .empty }

/-- The verifier of a suite that holds no keys yet. -/
def ofSuite (suite : Suite) : Except Error Verifier :=
  match suite.scheme? with
  | some scheme => .ok (ofScheme scheme)
  | none => .error (.unsupportedSuite suite)

/-- The suite whose signatures are checked. -/
def suite (verifier : Verifier) : Suite := verifier.scheme.suite

/-- The function whose digest is signed. -/
def hash (verifier : Verifier) : HashFunction := verifier.scheme.hash

/-- The verifier with one more key, and whether it was added: a taken identifier keeps its key. -/
def addKey (verifier : Verifier) (key : Key) : Except Error (Bool × Verifier) :=
  match verifier.scheme.readKey key with
  | .error flaw => .error (.invalidKey flaw)
  | .ok verifyingKey =>
    let (added, keys) := verifier.keys.insert key.keyId verifyingKey
    .ok (added, { verifier with keys })

/-- Whether the signature is accepted: a checksum when it is the digest, any other signature under
the key with the identifier or, without one, under some key. -/
def accepts (verifier : Verifier) (keyId : Option Octets) (digest signature : Octets) : Bool :=
  if verifier.scheme = .crc32c then signature == digest
  else
    (verifier.keys.candidates keyId).any fun key => verifier.scheme.accepts key digest signature

/-- Whether a signature made by the given suite matches the digest. Those of other suites do not,
whatever the digest; a digest of the wrong size is an error. -/
def verify (verifier : Verifier) (keyId : Option Octets) (digest : Octets) (suite : Suite)
    (signature : Octets) : Except Error Bool :=
  if suite ≠ verifier.suite then .ok false
  else do
    verifier.hash.checkDigest suite digest
    return verifier.accepts keyId digest signature

/-- The verifier as what a packet body is checked with. -/
def checker (verifier : Verifier) : SignatureChecker :=
  { hash := verifier.hash, check := verifier.verify }

instance : Coe Verifier SignatureChecker := ⟨checker⟩

@[simp] theorem hash_checker (verifier : Verifier) : verifier.checker.hash = verifier.hash := rfl

@[simp] theorem check_checker (verifier : Verifier) :
    verifier.checker.check = verifier.verify := rfl

end Verifier

end CcnxPacket
