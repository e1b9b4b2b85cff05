/-!
# TOML values

The data that a TOML document holds. Floating-point numbers and dates are told apart from the other
kinds of values, but what they say is not kept, since no configuration key takes them.
-/

namespace CcnxPacket.Toml

/-- A value. A table is a list of keys, all different, with their values. -/
inductive Value where
  | string (text : String)
  | integer (n : Int)
  | float
  | boolean (b : Bool)
  | date
  | array (members : List Value)
  | table (entries : List (String × Value))

/-- Integers have 64 bits: they lie below this bound, and not below its negative. -/
def integerBound : Nat := 0x8000000000000000

/-- The entries of a table. -/
abbrev Entries := List (String × Value)

/-! ### Equality -/

mutual

/-- Whether two values are the same. -/
def Value.same : Value → Value → Bool
  | .string a, .string b => a == b
  | .integer a, .integer b => a == b
  | .float, .float => true
  | .boolean a, .boolean b => a == b
  | .date, .date => true
  | .array as, .array bs => sameMembers as bs
  | .table as, .table bs => sameEntries as bs
  | _, _ => false

/-- Whether two arrays have the same members. -/
def sameMembers : List Value → List Value → Bool
  | [], [] => true
  | a :: as, b :: bs => a.same b && sameMembers as bs
  | _, _ => false

/-- Whether two tables have the same entries in the same order. -/
def sameEntries : List (String × Value) → List (String × Value) → Bool
  | [], [] => true
  | (k, a) :: as, (l, b) :: bs => k == l && a.same b && sameEntries as bs
  | _, _ => false

end

mutual

theorem Value.same_iff : (a b : Value) → (a.same b = true ↔ a = b)
  | .string a, b => by cases b <;> simp [Value.same]
  | .integer a, b => by cases b <;> simp [Value.same]
  | .float, b => by cases b <;> simp [Value.same]
  | .boolean a, b => by cases b <;> simp [Value.same]
  | .date, b => by cases b <;> simp [Value.same]
  | .array as, b => by
      cases b with
      | array bs => simp [Value.same, sameMembers_iff as bs]
      | _ => simp [Value.same]
  | .table as, b => by
      cases b with
      | table bs => simp [Value.same, sameEntries_iff as bs]
      | _ => simp [Value.same]

theorem sameMembers_iff : (as bs : List Value) → (sameMembers as bs = true ↔ as = bs)
  | [], [] => by simp [sameMembers]
  | [], _ :: _ => by simp [sameMembers]
  | _ :: _, [] => by simp [sameMembers]
  | a :: as, b :: bs => by simp [sameMembers, Value.same_iff a b, sameMembers_iff as bs]

theorem sameEntries_iff : (as bs : List (String × Value)) → (sameEntries as bs = true ↔ as = bs)
  | [], [] => by simp [sameEntries]
  | [], _ :: _ => by simp [sameEntries]
  | _ :: _, [] => by simp [sameEntries]
  | (k, a) :: as, (l, b) :: bs => by
      simp [sameEntries, Value.same_iff a b, sameEntries_iff as bs]

end

instance : DecidableEq Value := fun a b => decidable_of_iff _ (Value.same_iff a b)

end CcnxPacket.Toml
