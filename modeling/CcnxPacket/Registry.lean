import CcnxPacket.Field.Format

/-!
# Registries of formats

A registry says which format carries the elements with a given type identifier. It is filled by
registrations and then frozen, after which it refuses every further one. The first registration of
an identifier stands: a second one is an error or is ignored, as the registry's policy says.

Formats may be of any type. `Registry` without one is a registry of the built-in formats.
-/

namespace CcnxPacket

/-- What a second registration of an identifier does. -/
inductive DuplicatePolicy where
  /-- It fails. -/
  | reject
  /-- It is ignored. -/
  | keepFirst
deriving DecidableEq, Repr

/-- The policy in a configuration. -/
def DuplicatePolicy.text : DuplicatePolicy → String
  | reject => "reject"
  | keepFirst => "keep_first"

/-- The policy with the given text. -/
def DuplicatePolicy.ofText? (text : String) : Option DuplicatePolicy :=
  if text = reject.text then some reject
  else if text = keepFirst.text then some keepFirst
  else none

/-- Which format carries which elements. -/
structure Registry (F : Type := Format) where
  policy : DuplicatePolicy
  frozen : Bool
  /-- Identifiers with their formats, in the order of registration. -/
  entries : List (Tid × F)

namespace Registry

section
variable {F : Type}

/-- The registry without entries, open for registration. -/
def empty (policy : DuplicatePolicy) : Registry F := { policy, frozen := false, entries := [] }

/-- The format of an identifier, when one is registered. -/
def find? (registry : Registry F) (tid : Tid) : Option F := registry.entries.lookup tid

/-- The format of an identifier. -/
def lookup (registry : Registry F) (tid : Tid) : Except Error F :=
  match registry.find? tid with
  | some format => .ok format
  | none => .error (.unknownType tid)

/-- Whether a format is registered for the identifier. -/
def contains (registry : Registry F) (tid : Tid) : Bool := (registry.find? tid).isSome

/-- How many identifiers are registered. -/
def size (registry : Registry F) : Nat := registry.entries.length

/-- Whether nothing is registered. -/
def isEmpty (registry : Registry F) : Bool := registry.entries.isEmpty

/-- The registered identifiers in ascending order. -/
def tids (registry : Registry F) : List Tid := Tid.sort (registry.entries.map (·.1))

/-- Registers a format for an identifier. -/
def register (registry : Registry F) (tid : Tid) (format : F) : Except Error (Registry F) :=
  if registry.frozen then .error (.registryFrozen tid)
  else if registry.contains tid then
    match registry.policy with
    | .reject => .error (.duplicateRegistration tid)
    | .keepFirst => .ok registry
  else .ok { registry with entries := registry.entries ++ [(tid, format)] }

/-- Ends the registration phase. -/
def freeze (registry : Registry F) : Registry F := { registry with frozen := true }

/-- Registers several formats in order; the first failure ends it. -/
def registerAll (registry : Registry F) (entries : List (Tid × F)) : Except Error (Registry F) :=
  entries.foldlM (fun registry entry => registry.register entry.1 entry.2) registry

end

/-- The formats of the CCNx 1.0 elements. -/
def standardEntries : List (Tid × Format) :=
  [ (Tid.interest.element TlvType.name, .name),
    (Tid.interest.element TlvType.payload, .payload),
    (Tid.interest.element TlvType.keyIdRestriction, .hashValue),
    (Tid.interest.element TlvType.hashRestriction, .hashValue),
    (Tid.contentObject.element TlvType.name, .name),
    (Tid.contentObject.element TlvType.payload, .payload),
    (Tid.contentObject.element TlvType.payloadType, .payloadType),
    (Tid.contentObject.element TlvType.expiry, .timestamp),
    (Tid.validationPayload, .payload) ]
  ++ Suite.all.map fun suite => (suite.tid, .validationAlgorithm)

/-- A registry with the CCNx 1.0 formats registered, open for more. -/
def standard (policy : DuplicatePolicy) : Except Error Registry :=
  (empty policy).registerAll standardEntries

/-- The registry of the CCNx 1.0 formats that is used unless another one is asked for. Its entries
are put in place without being registered one by one. -/
def shared : Registry := { policy := .reject, frozen := true, entries := standardEntries }

/-! ### Sequences of registrations -/

/-- One change to a registry. -/
inductive Step (F : Type := Format) where
  | register (tid : Tid) (format : F)
  | freeze
deriving DecidableEq

/-- Carries out a step: its outcome, and the registry after it. A step that fails changes
nothing. -/
def step {F : Type} (registry : Registry F) : Step F → Except Error Unit × Registry F
  | .register tid format =>
    match registry.register tid format with
    | .ok after => (.ok (), after)
    | .error e => (.error e, registry)
  | .freeze => (.ok (), registry.freeze)

end Registry

end CcnxPacket
