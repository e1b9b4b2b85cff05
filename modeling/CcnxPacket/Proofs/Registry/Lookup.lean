import CcnxPacket.Packet.Codec
import CcnxPacket.Proofs.Result
import CcnxPacket.Proofs.Writing.Writer

/-!
# Looking up formats in two registries

Two registries, whose formats need not be of one type, are compared at the standard identifiers:
there the one has a format that behaves as the other's does (`SameFormat`), or none. Whatever reads
or writes with a standard format then does the same with both, unless it fails for want of a format
that only the other registry has (`Follows`, `Writer.Follows`).
-/

namespace CcnxPacket

/-! ### Following -/

/-- The result is the other one, or the failure to find the format of an identifier that is
missing. -/
def Follows {α : Type} (missing : Tid → Prop) (x y : Except Error α) : Prop :=
  x = y ∨ ∃ tid, missing tid ∧ x = .error (.unknownType tid)

namespace Follows

variable {α β : Type} {missing : Tid → Prop} {x y : Except Error α}

theorem refl (x : Except Error α) : Follows missing x x := .inl rfl

/-- Chains of steps that follow each other do so as well. -/
theorem bind {f g : α → Except Error β} (h : Follows missing x y)
    (hf : ∀ a, Follows missing (f a) (g a)) : Follows missing (x >>= f) (y >>= g) := by
  rcases h with rfl | ⟨tid, hmissing, rfl⟩
  · cases x with
    | error e => exact refl _
    | ok a => exact hf a
  · exact .inr ⟨tid, hmissing, rfl⟩

theorem map (f : α → β) (h : Follows missing x y) : Follows missing (x.map f) (y.map f) := by
  rcases h with rfl | ⟨tid, hmissing, rfl⟩
  · exact refl _
  · exact .inr ⟨tid, hmissing, rfl⟩

/-- Where nothing is missing, the results are equal. -/
theorem eq (h : Follows missing x y) (hnone : ∀ tid, ¬missing tid) : x = y :=
  h.resolve_right fun ⟨tid, hmissing, _⟩ => hnone tid hmissing

end Follows

/-- On every output, the writer does what the other one does, or fails to find the format of an
identifier that is missing. -/
def Writer.Follows {α : Type} (missing : Tid → Prop) (x y : Writer α) : Prop :=
  ∀ out, x.run out = y.run out ∨ ∃ tid, missing tid ∧ (x.run out).1 = .error (.unknownType tid)

namespace Writer.Follows

variable {α β : Type} {missing : Tid → Prop} {x y : Writer α}

theorem refl (x : Writer α) : Writer.Follows missing x x := fun _ => .inl rfl

theorem lift {x y : Except Error α} (h : CcnxPacket.Follows missing x y) :
    Writer.Follows missing (liftM x) (liftM y) := by
  intro out
  rcases h with rfl | h
  · exact .inl rfl
  · exact .inr h

theorem bind {f g : α → Writer β} (h : Writer.Follows missing x y)
    (hf : ∀ a, Writer.Follows missing (f a) (g a)) :
    Writer.Follows missing (x >>= f) (y >>= g) := by
  intro out
  cases hx : x.run out with
  | mk result after =>
      rcases h out with hsame | ⟨tid, hmissing, hfails⟩
      · rw [hx] at hsame
        cases result with
        | error e =>
            rw [run_bind_of_error hx, run_bind_of_error hsame.symm]
            exact .inl rfl
        | ok a =>
            rw [run_bind_of_ok hx, run_bind_of_ok hsame.symm]
            exact hf a after
      · rw [hx] at hfails
        cases hfails
        rw [run_bind_of_error hx]
        exact .inr ⟨tid, hmissing, rfl⟩

/-- What writers append follows when the writers do. -/
theorem toOctets (h : Writer.Follows missing x y) :
    CcnxPacket.Follows missing x.toOctets y.toOctets := by
  unfold Writer.toOctets
  rcases h .empty with hsame | ⟨tid, hmissing, hfails⟩
  · rw [hsame]
    exact .refl _
  · cases hx : x.run .empty with
    | mk result after =>
        rw [hx] at hfails
        cases hfails
        exact .inr ⟨tid, hmissing, rfl⟩

end Writer.Follows

/-! ### Formats that behave alike -/

section
variable {F G : Type} [FieldFormat F] [FieldFormat G]

/-- The two formats cannot be told apart by reading, by writing, or by what errors call them. -/
structure SameFormat (format : F) (other : G) : Prop where
  text : FieldFormat.text format = FieldFormat.text other
  decode : FieldFormat.decode format = FieldFormat.decode other
  encode : FieldFormat.encode format = FieldFormat.encode other
  encodedSize : FieldFormat.encodedSize format = FieldFormat.encodedSize other

theorem SameFormat.refl (format : F) : SameFormat format format := ⟨rfl, rfl, rfl, rfl⟩

/-- Identifiers at which the same is found agree. -/
theorem SameFormat.rel_of_eq {found found' : Option F} (h : found = found') :
    Option.Rel SameFormat found found' := by
  subst h
  cases found with
  | none => exact .none
  | some format => exact .some (.refl format)

namespace Registry

/-- The fifteen identifiers of the standard formats. -/
def standardTids : List Tid := standardEntries.map Prod.fst

/-- At each standard identifier, the registry has a format that behaves as the other one's does, or
no format. -/
def IsWithin (registry : Registry F) (other : Registry G) : Prop :=
  ∀ tid ∈ standardTids,
    Option.Rel SameFormat (registry.find? tid) (other.find? tid) ∨ registry.find? tid = none

/-- The identifier is a standard one whose format the other registry has and this one does not. -/
def Lacks (registry : Registry F) (other : Registry G) (tid : Tid) : Prop :=
  tid ∈ standardTids ∧ registry.find? tid = none ∧ other.find? tid ≠ none

variable {registry : Registry F} {other : Registry G} {tid : Tid}

/-- A standard format is found alike in both registries, in neither, or in the other one only. -/
theorem lookup_cases (h : registry.IsWithin other) (htid : tid ∈ standardTids) :
    (∃ format format', registry.lookup tid = .ok format ∧ other.lookup tid = .ok format' ∧
      SameFormat format format') ∨
    (registry.lookup tid = .error (.unknownType tid) ∧
      (other.lookup tid = .error (.unknownType tid) ∨ registry.Lacks other tid)) := by
  have hnone : registry.find? tid = none →
      registry.lookup tid = .error (.unknownType tid) ∧
        (other.lookup tid = .error (.unknownType tid) ∨ registry.Lacks other tid) := by
    intro hnone
    refine ⟨by rw [lookup, hnone], ?_⟩
    cases hother : other.find? tid with
    | none => exact .inl (by rw [lookup, hother])
    | some format => exact .inr ⟨htid, hnone, by simp [hother]⟩
  rcases h tid htid with hrel | hmissing
  · cases hfound : registry.find? tid with
    | none => exact .inr (hnone hfound)
    | some format =>
        rw [hfound] at hrel
        cases hother : other.find? tid with
        | none =>
            rw [hother] at hrel
            cases hrel
        | some format' =>
            rw [hother] at hrel
            cases hrel with
            | some hsame =>
                exact .inl ⟨format, format', by rw [lookup, hfound], by rw [lookup, hother], hsame⟩
  · exact .inr (hnone hmissing)

/-- What is done with a standard format follows when it does so for formats that behave alike. -/
theorem follows_lookup_bind {α : Type} (h : registry.IsWithin other) (htid : tid ∈ standardTids)
    {use : F → Except Error α} {use' : G → Except Error α}
    (huse : ∀ format format', SameFormat format format' →
      Follows (registry.Lacks other) (use format) (use' format')) :
    Follows (registry.Lacks other) (registry.lookup tid >>= use) (other.lookup tid >>= use') := by
  rcases lookup_cases h htid with ⟨format, format', hone, hother, hsame⟩ | ⟨hone, hother | hlacks⟩
  · rw [hone, hother]
    exact huse format format' hsame
  · rw [hone, hother]
    exact .refl _
  · rw [hone]
    exact .inr ⟨tid, hlacks, rfl⟩

/-- What is written with a standard format follows when it does so for formats that behave alike. -/
theorem writer_follows_lookup_bind {α : Type} (h : registry.IsWithin other)
    (htid : tid ∈ standardTids) {use : F → Writer α} {use' : G → Writer α}
    (huse : ∀ format format', SameFormat format format' →
      Writer.Follows (registry.Lacks other) (use format) (use' format')) :
    Writer.Follows (registry.Lacks other) (liftM (registry.lookup tid) >>= use)
      (liftM (other.lookup tid) >>= use') := by
  rcases lookup_cases h htid with ⟨format, format', hone, hother, hsame⟩ | ⟨hone, hother | hlacks⟩
  · rw [hone, hother]
    exact huse format format' hsame
  · rw [hone, hother]
    exact .refl _
  · rw [hone]
    exact fun _ => .inr ⟨tid, hlacks, rfl⟩

/-- The fields that messages may hold are at standard identifiers. -/
theorem field_mem_standardTids {kind : MessageKind} {type : UInt16} (h : type ∈ kind.fieldTypes) :
    kind.tid.element type ∈ standardTids := by
  have hall : (kind.fieldTypes.all fun type => kind.tid.element type ∈ standardTids) = true := by
    cases kind <;> decide
  simpa using List.all_eq_true.1 hall type h

/-- The suites' identifiers are standard. -/
theorem suite_mem_standardTids (suite : Suite) : suite.tid ∈ standardTids := by
  cases suite <;> decide

/-- The identifier of signatures is standard. -/
theorem payload_mem_standardTids : Tid.validationPayload ∈ standardTids := by
  decide

end Registry

end

end CcnxPacket
