import CcnxPacket.Hash

/-!
# Keys and key stores

A key is octets with a kind and an identifier, by default the SHA-256 hash of the octets. A key
store keeps the first key that comes with an identifier. Whoever looks for keys names an identifier
or, not knowing it, has to try them all.
-/

namespace CcnxPacket

/-- The identifier that a key has unless it is given another one. -/
def keyIdOf (key : Octets) : Octets := Sha2.sha256 key

/-- Who may know a key. -/
inductive KeyKind where
  | symmetric
  | publicKey
deriving DecidableEq, Repr

/-- The kind in words. -/
def KeyKind.text : KeyKind → String
  | symmetric => "Symmetric"
  | publicKey => "Public"

/-- A key for checking signatures. -/
structure Key where
  keyId : Octets
  kind : KeyKind
  octets : Octets
deriving DecidableEq

namespace Key

/-- The key with the identifier that follows from its octets. -/
def ofOctets (kind : KeyKind) (octets : Octets) : Key := { keyId := keyIdOf octets, kind, octets }

/-- The key for people to read. Its octets may be a secret and are not shown. -/
def render (key : Key) : String :=
  "Key \x7b key_id: \"" ++ key.keyId.hex ++ "\", kind: " ++ key.kind.text ++ ", len: "
    ++ toString key.octets.length ++ " \x7d"

end Key

/-- Keys by identifier. -/
structure KeyStore (K : Type) where
  entries : List (Octets × K)

namespace KeyStore

variable {K : Type}

/-- The store without keys. -/
def empty : KeyStore K := ⟨[]⟩

/-- The key with the given identifier. -/
def get? (store : KeyStore K) (keyId : Octets) : Option K := store.entries.lookup keyId

/-- The store with one more key, and whether it was added: a taken identifier keeps its key. -/
def insert (store : KeyStore K) (keyId : Octets) (key : K) : Bool × KeyStore K :=
  if (store.get? keyId).isSome then (false, store)
  else (true, ⟨store.entries ++ [(keyId, key)]⟩)

/-- The keys to try: the one with the identifier when it is known, else all. -/
def candidates (store : KeyStore K) : Option Octets → List K
  | some keyId => (store.get? keyId).toList
  | none => store.entries.map (·.2)

/-- How many keys there are. -/
def size (store : KeyStore K) : Nat := store.entries.length

/-- Whether there are no keys. -/
def isEmpty (store : KeyStore K) : Bool := store.entries.isEmpty

end KeyStore

end CcnxPacket
