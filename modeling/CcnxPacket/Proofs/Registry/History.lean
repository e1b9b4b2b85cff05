import CcnxPacket.Proofs.Tid.Order
import CcnxPacket.Registry
import Mathlib

/-!
# What a registry remembers of its calls

A registry is changed and read by calls that take effect one after the other, whoever makes them.
What it answers is determined by the calls themselves: an identifier has the format of its first
registration before the first freeze, and a registration that fails or is ignored leaves no trace.
None of this depends on what the formats are, so it is said of formats of any type.

The calls of several threads take effect in some order too, so the sequences of calls are all the
ways in which theirs may interleave.
-/

namespace CcnxPacket

/-- What becomes of a registration of an identifier that is taken. -/
def DuplicatePolicy.outcome (policy : DuplicatePolicy) (tid : Tid) : Except Error Unit :=
  match policy with
  | .reject => .error (.duplicateRegistration tid)
  | .keepFirst => .ok ()

namespace Registry

/-! ### Calls and their answers -/

/-- A call to a registry: a change, or a read. -/
inductive Call (F : Type := Format) where
  | change (s : Step F)
  | lookup (tid : Tid)
  | contains (tid : Tid)
  | size
  | isEmpty
  | tids
  | isFrozen
deriving DecidableEq

/-- What a call answers. -/
inductive Answer (F : Type := Format) where
  | outcome (result : Except Error Unit)
  | format (result : Except Error F)
  | truth (value : Bool)
  | count (n : Nat)
  | tids (tids : List Tid)

variable {F : Type}

/-- Carries out a call: its answer, and the registry after it. -/
def call (registry : Registry F) : Call F → Answer F × Registry F
  | .change s => (.outcome (registry.step s).1, (registry.step s).2)
  | .lookup tid => (.format (registry.lookup tid), registry)
  | .contains tid => (.truth (registry.contains tid), registry)
  | .size => (.count registry.size, registry)
  | .isEmpty => (.truth registry.isEmpty, registry)
  | .tids => (.tids registry.tids, registry)
  | .isFrozen => (.truth registry.frozen, registry)

/-- The registry after a sequence of calls. -/
def after (registry : Registry F) (calls : List (Call F)) : Registry F :=
  calls.foldl (fun registry c => (registry.call c).2) registry

/-- The answers to a sequence of calls. -/
def answers (registry : Registry F) : List (Call F) → List (Answer F)
  | [] => []
  | c :: calls => (registry.call c).1 :: answers (registry.call c).2 calls

/-- Whether a call with its answer is a registration that succeeded. -/
def isAccepted : Call F × Answer F → Bool
  | (.change (.register _ _), .outcome (.ok ())) => true
  | _ => false

/-- How many registrations of a sequence of calls succeed. -/
def accepted (registry : Registry F) (calls : List (Call F)) : Nat :=
  (calls.zip (registry.answers calls)).countP isAccepted

namespace Call

/-- The call that ends the registration phase. -/
abbrev freeze : Call F := .change .freeze

/-- The call that registers a format for an identifier. -/
abbrev register (tid : Tid) (format : F) : Call F := .change (.register tid format)

/-- Whether the call ends the registration phase. -/
def freezes : Call F → Bool
  | .change .freeze => true
  | _ => false

/-- The format that the call registers for the identifier, if it does. -/
def registers? (tid : Tid) : Call F → Option F
  | .change (.register other format) => if other = tid then some format else none
  | _ => none

theorem freezes_iff {c : Call F} : c.freezes = true ↔ c = .freeze := by
  cases c with
  | change s => cases s <;> simp [freezes]
  | lookup | contains | size | isEmpty | tids | isFrozen => simp [freezes]

end Call

/-- The format of the identifier's first registration before the first freeze. -/
def firstRegistered (calls : List (Call F)) (tid : Tid) : Option F :=
  (calls.takeWhile (!·.freezes)).findSome? (·.registers? tid)

/-! ### The first registration -/

section
variable {calls : List (Call F)} {tid : Tid}

/-- Calls that do not freeze are all before the first freeze. -/
theorem not_freezes_of_open (h : .freeze ∉ calls) : ∀ c ∈ calls, (!c.freezes) = true := by
  intro c hc
  rw [Bool.not_eq_true', Bool.eq_false_iff, ne_eq, Call.freezes_iff]
  rintro rfl
  exact h hc

/-- Before the first freeze every registration counts. -/
theorem firstRegistered_of_open (h : .freeze ∉ calls) :
    firstRegistered calls tid = calls.findSome? (·.registers? tid) := by
  rw [firstRegistered, List.takeWhile_eq_self_iff.2 (not_freezes_of_open h)]

/-- After a freeze, no call is a first registration. -/
theorem firstRegistered_append_of_frozen (h : .freeze ∈ calls) (more : List (Call F)) :
    firstRegistered (calls ++ more) tid = firstRegistered calls tid := by
  have hstops : (calls.takeWhile (!·.freezes)).length ≠ calls.length := by
    intro hlength
    have hall := (List.takeWhile_prefix (l := calls) (!·.freezes)).eq_of_length hlength
    rw [← hall] at h
    simpa [Call.freezes] using List.mem_takeWhile_imp h
  rw [firstRegistered, List.takeWhile_append, if_neg hstops, firstRegistered]

/-- Before the first freeze, one more call counts for identifiers that have no registration yet. -/
theorem firstRegistered_concat_of_open (h : .freeze ∉ calls) (c : Call F) :
    firstRegistered (calls ++ [c]) tid = (firstRegistered calls tid).or (c.registers? tid) := by
  by_cases hc : c = .freeze
  · subst hc
    rw [firstRegistered_of_open h, firstRegistered,
      List.takeWhile_append_of_pos (not_freezes_of_open h)]
    simp [Call.registers?, Call.freezes]
  · have hopen : .freeze ∉ calls ++ [c] := by
      simp [h, Ne.symm hc]
    rw [firstRegistered_of_open hopen, firstRegistered_of_open h, List.findSome?_append]
    simp

end

/-! ### What one call does -/

section
variable {registry : Registry F} {tid : Tid}

/-- The identifiers of the entries are those that the registry contains. -/
theorem mem_identifiers_iff : tid ∈ registry.entries.map Prod.fst ↔ registry.contains tid := by
  rw [contains, find?]
  induction registry.entries with
  | nil => simp
  | cons entry entries ih =>
      rw [List.lookup_cons, List.map_cons, List.mem_cons, ih]
      by_cases h : tid = entry.1
      · simp [h]
      · rw [beq_false_of_ne h]
        exact or_iff_right h

/-- A registration looks at the freeze, then at what is taken, and adds an entry if neither stands
in its way. -/
theorem step_register (registry : Registry F) (tid : Tid) (format : F) :
    registry.step (.register tid format) =
      if registry.frozen then (.error (.registryFrozen tid), registry)
      else if registry.contains tid then (registry.policy.outcome tid, registry)
      else (.ok (), { registry with entries := registry.entries ++ [(tid, format)] }) := by
  simp only [step, register]
  cases registry.frozen with
  | true => rfl
  | false =>
      cases registry.contains tid with
      | true => cases registry.policy <;> rfl
      | false => rfl

/-- Identifiers that are not taken, each registered once, are added in order. -/
theorem registerAll_of_fresh {entries : List (Tid × F)} (hopen : registry.frozen = false)
    (hfresh : ((registry.entries ++ entries).map Prod.fst).Nodup) :
    registry.registerAll entries =
      .ok { registry with entries := registry.entries ++ entries } := by
  induction entries generalizing registry with
  | nil =>
      rw [List.append_nil]
      rfl
  | cons entry entries ih =>
      rw [List.append_cons] at hfresh ⊢
      have hfree : registry.contains entry.1 = false := by
        rw [List.map_append, List.nodup_append, List.map_append, List.nodup_append] at hfresh
        obtain ⟨⟨-, -, hdistinct⟩, -⟩ := hfresh
        rw [Bool.eq_false_iff, ne_eq, ← mem_identifiers_iff]
        exact fun h => hdistinct entry.1 h entry.1 (by simp) rfl
      have hregister : registry.register entry.1 entry.2 =
          .ok { registry with entries := registry.entries ++ [entry] } := by
        simp [register, hopen, hfree]
      rw [registerAll, List.foldlM_cons, hregister]
      exact ih hopen hfresh

/-- The standard formats can be registered under either policy. -/
theorem standard_eq (policy : DuplicatePolicy) :
    standard policy = .ok { policy, frozen := false, entries := standardEntries } := by
  have hfresh : (standardEntries.map Prod.fst).Nodup := by decide
  exact registerAll_of_fresh rfl hfresh

end

/-! ### What a sequence of calls leaves -/

/-- The registry is as the calls leave it: it is frozen once one of them freezes it, and it holds
the first registrations. -/
structure Remembers (registry : Registry F) (policy : DuplicatePolicy) (calls : List (Call F)) :
    Prop where
  policy : registry.policy = policy
  frozen : registry.frozen = true ↔ .freeze ∈ calls
  found : ∀ tid, registry.find? tid = firstRegistered calls tid
  distinct : (registry.entries.map Prod.fst).Nodup

namespace Remembers

variable {registry : Registry F} {policy : DuplicatePolicy} {calls : List (Call F)} {tid : Tid}

/-- An empty registry remembers that nothing was called. -/
theorem empty (policy : DuplicatePolicy) :
    Remembers (Registry.empty policy : Registry F) policy [] where
  policy := rfl
  frozen := by simp [Registry.empty]
  found _ := rfl
  distinct := List.nodup_nil

/-- A registry contains what was registered. -/
theorem contains_eq (h : Remembers registry policy calls) :
    registry.contains tid = (firstRegistered calls tid).isSome := by
  rw [contains, h.found]

/-- A call that does not freeze, and that registers nothing that is not taken, may as well not have
been made. -/
theorem concat_of_ignored (h : Remembers registry policy calls) {c : Call F} (hc : c ≠ .freeze)
    (hignored : ∀ tid, .freeze ∉ calls → firstRegistered calls tid = none →
      c.registers? tid = none) : Remembers registry policy (calls ++ [c]) where
  policy := h.policy
  frozen := by
    rw [h.frozen, List.mem_append, List.mem_singleton]
    exact (or_iff_left (Ne.symm hc)).symm
  found tid := by
    rw [h.found]
    by_cases hfrozen : .freeze ∈ calls
    · rw [firstRegistered_append_of_frozen hfrozen]
    · rw [firstRegistered_concat_of_open hfrozen]
      cases hfirst : firstRegistered calls tid with
      | some format => rfl
      | none => rw [hignored tid hfrozen hfirst, Option.none_or]
  distinct := h.distinct

/-- Freezing is remembered. -/
theorem concat_freeze (h : Remembers registry policy calls) :
    Remembers registry.freeze policy (calls ++ [.freeze]) where
  policy := h.policy
  frozen := by simp [freeze]
  found tid := by
    refine (h.found tid).trans ?_
    by_cases hfrozen : .freeze ∈ calls
    · rw [firstRegistered_append_of_frozen hfrozen]
    · rw [firstRegistered_concat_of_open hfrozen]
      exact Option.or_none.symm
  distinct := h.distinct

/-- A registration that finds its identifier free is remembered. -/
theorem concat_register (h : Remembers registry policy calls) (format : F)
    (hopen : .freeze ∉ calls) (hfree : registry.contains tid = false) :
    Remembers { registry with entries := registry.entries ++ [(tid, format)] } policy
      (calls ++ [.register tid format]) where
  policy := h.policy
  frozen := by
    rw [List.mem_append, List.mem_singleton]
    exact h.frozen.trans (or_iff_left (by simp)).symm
  found other := by
    rw [firstRegistered_concat_of_open hopen, ← h.found, find?, find?, List.lookup_append]
    congr 1
    by_cases hsame : tid = other
    · subst hsame
      simp [Call.registers?]
    · rw [List.lookup_cons, beq_false_of_ne (Ne.symm hsame)]
      simp [Call.registers?, hsame]
  distinct := by
    have hfresh : tid ∉ registry.entries.map Prod.fst := by
      simp [mem_identifiers_iff, hfree]
    rw [List.map_append, List.map_singleton, List.nodup_append_comm]
    exact List.nodup_cons.2 ⟨hfresh, h.distinct⟩

/-- Every call keeps the account. -/
theorem call (h : Remembers registry policy calls) (c : Call F) :
    Remembers (registry.call c).2 policy (calls ++ [c]) := by
  cases c with
  | change s =>
      cases s with
      | freeze => exact h.concat_freeze
      | register tid format =>
          -- A registration that comes too late, or second, is no first one.
          have hignored : (.freeze ∈ calls ∨ registry.contains tid = true) →
              Remembers registry policy (calls ++ [.register tid format]) := by
            intro hno
            apply h.concat_of_ignored (by simp)
            intro other hopen hnone
            have htaken := hno.resolve_left hopen
            rw [h.contains_eq] at htaken
            have hother : tid ≠ other := by
              rintro rfl
              rw [hnone] at htaken
              cases htaken
            exact if_neg hother
          simp only [Registry.call, step_register]
          split
          · next hfrozen => exact hignored (.inl (h.frozen.1 hfrozen))
          · next hopen =>
              split
              · next htaken => exact hignored (.inr htaken)
              · next hfree =>
                  exact h.concat_register format (mt h.frozen.2 hopen) (Bool.eq_false_iff.2 hfree)
  | lookup | contains | size | isEmpty | tids | isFrozen =>
      exact h.concat_of_ignored (by simp) fun _ _ _ => rfl

/-- A registry remembers all calls to it. -/
theorem after (h : Remembers registry policy calls) (more : List (Call F)) :
    Remembers (registry.after more) policy (calls ++ more) := by
  induction more generalizing registry calls with
  | nil =>
      rw [List.append_nil]
      exact h
  | cons c more ih =>
      rw [List.append_cons]
      exact ih (h.call c)

end Remembers

/-- The account of a sequence of calls from the start. -/
theorem remembers_after_empty (policy : DuplicatePolicy) (calls : List (Call F)) :
    Remembers ((empty policy).after calls) policy calls :=
  (Remembers.empty policy).after calls

/-! ### What reads tell -/

section
variable {registry other : Registry F} {policy : DuplicatePolicy} {calls calls' : List (Call F)}
  {tid : Tid}

/-- The listed identifiers are those that the registry contains. -/
theorem mem_tids_iff : tid ∈ registry.tids ↔ registry.contains tid = true := by
  rw [tids, Tid.mem_sort, mem_identifiers_iff]

/-- As many identifiers are listed as there are entries. -/
theorem length_tids (registry : Registry F) : registry.tids.length = registry.size := by
  rw [tids, Tid.length_sort, List.length_map, size]

theorem isEmpty_eq (registry : Registry F) : registry.isEmpty = (registry.size == 0) := by
  rw [isEmpty, size]
  cases registry.entries <;> rfl

namespace Remembers

/-- A lookup finds what was registered first. -/
theorem lookup_eq (h : Remembers registry policy calls) :
    registry.lookup tid =
      match firstRegistered calls tid with
      | some format => .ok format
      | none => .error (.unknownType tid) := by
  cases hfirst : firstRegistered calls tid with
  | none => simp [lookup, h.found, hfirst]
  | some format => simp [lookup, h.found, hfirst]

/-- Calls that leave the same first registrations leave registries with the same identifiers. -/
theorem perm_identifiers (h : Remembers registry policy calls)
    (h' : Remembers other policy calls') (hfirst : firstRegistered calls = firstRegistered calls') :
    (registry.entries.map Prod.fst).Perm (other.entries.map Prod.fst) := by
  refine (List.perm_ext_iff_of_nodup h.distinct h'.distinct).2 fun tid => ?_
  rw [mem_identifiers_iff, mem_identifiers_iff, h.contains_eq, h'.contains_eq, hfirst]

/-- Registries that remember the same registrations answer alike. -/
theorem answer_eq (h : Remembers registry policy calls) (h' : Remembers other policy calls')
    (hfreeze : .freeze ∈ calls ↔ .freeze ∈ calls')
    (hfirst : firstRegistered calls = firstRegistered calls') (c : Call F) :
    (registry.call c).1 = (other.call c).1 := by
  have hperm := h.perm_identifiers h' hfirst
  have hsize : registry.size = other.size := by
    simpa [size] using hperm.length_eq
  have hcontains : ∀ tid, registry.contains tid = other.contains tid := by
    intro tid
    rw [h.contains_eq, h'.contains_eq, hfirst]
  have hfrozen : registry.frozen = other.frozen := by
    rw [Bool.eq_iff_iff, h.frozen, h'.frozen, hfreeze]
  cases c with
  | change s =>
      cases s with
      | freeze => rfl
      | register tid format =>
          simp only [Registry.call, step_register, hfrozen, hcontains, h.policy, h'.policy]
          split
          · rfl
          · split <;> rfl
  | lookup tid => simp only [Registry.call, h.lookup_eq, h'.lookup_eq, hfirst]
  | contains tid => simp only [Registry.call, hcontains]
  | size => simp only [Registry.call, hsize]
  | isEmpty =>
      have hempty : registry.isEmpty = other.isEmpty := by
        rw [isEmpty_eq, isEmpty_eq, hsize]
      simp only [Registry.call, hempty]
  | tids => simp only [Registry.call, Registry.tids, Tid.sort_eq_of_perm hperm]
  | isFrozen => simp only [Registry.call, hfrozen]

/-- Reads tell first registrations and the freeze, and nothing else about the calls. -/
theorem answers_eq (h : Remembers registry policy calls) (h' : Remembers other policy calls')
    (hfreeze : .freeze ∈ calls ↔ .freeze ∈ calls')
    (hfirst : firstRegistered calls = firstRegistered calls') (later : List (Call F)) :
    registry.answers later = other.answers later := by
  induction later generalizing registry other calls calls' with
  | nil => rfl
  | cons c later ih =>
      have hfreeze' : .freeze ∈ calls ++ [c] ↔ .freeze ∈ calls' ++ [c] := by
        simp [hfreeze]
      have hfirst' : firstRegistered (calls ++ [c]) = firstRegistered (calls' ++ [c]) := by
        funext tid
        by_cases hfrozen : .freeze ∈ calls
        · rw [firstRegistered_append_of_frozen hfrozen,
            firstRegistered_append_of_frozen (hfreeze.1 hfrozen), hfirst]
        · rw [firstRegistered_concat_of_open hfrozen,
            firstRegistered_concat_of_open (mt hfreeze.2 hfrozen), hfirst]
      rw [answers, answers, h.answer_eq h' hfreeze hfirst c,
        ih (h.call c) (h'.call c) hfreeze' hfirst']

end Remembers

end

/-! ### The number of successful registrations -/

theorem accepted_cons (registry : Registry F) (c : Call F) (calls : List (Call F)) :
    registry.accepted (c :: calls) =
      (registry.call c).2.accepted calls + (isAccepted (c, (registry.call c).1)).toNat := by
  rw [accepted, answers, List.zip_cons_cons, List.countP_cons, accepted]
  cases isAccepted (c, (registry.call c).1) <;> rfl

/-- No call changes the policy. -/
theorem policy_call (registry : Registry F) (c : Call F) :
    (registry.call c).2.policy = registry.policy := by
  cases c with
  | change s =>
      cases s with
      | freeze => rfl
      | register tid format =>
          simp only [call, step_register]
          split
          · rfl
          · split <;> rfl
  | lookup | contains | size | isEmpty | tids | isFrozen => rfl

/-- Where duplicates are rejected, exactly the calls that succeed as registrations add an entry. -/
theorem size_call {registry : Registry F} (hpolicy : registry.policy = .reject) (c : Call F) :
    (registry.call c).2.size =
      registry.size + (isAccepted (c, (registry.call c).1)).toNat := by
  cases c with
  | change s =>
      cases s with
      | freeze => rfl
      | register tid format =>
          simp only [call, step_register, hpolicy]
          split
          · rfl
          · split
            · rfl
            · exact List.length_append
  | lookup | contains | size | isEmpty | tids | isFrozen => rfl

/-- A registry that rejects duplicates grows by the registrations that it accepts. -/
theorem size_after {registry : Registry F} (hpolicy : registry.policy = .reject)
    (calls : List (Call F)) :
    (registry.after calls).size = registry.size + registry.accepted calls := by
  induction calls generalizing registry with
  | nil => rfl
  | cons c calls ih =>
      have hnext : (registry.call c).2.policy = .reject := (registry.policy_call c).trans hpolicy
      have hafter : registry.after (c :: calls) = (registry.call c).2.after calls := rfl
      rw [hafter, ih hnext, size_call hpolicy, accepted_cons]
      omega

/-! ### The order of registrations -/

/-- The same calls in another order, in which calls that register the same identifier have not
changed places. -/
inductive Rearranges : List (Call F) → List (Call F) → Prop where
  | refl (calls : List (Call F)) : Rearranges calls calls
  | cons (c : Call F) {calls calls' : List (Call F)} (tail : Rearranges calls calls') :
      Rearranges (c :: calls) (c :: calls')
  | swap (a b : Call F) (calls : List (Call F))
      (distinct : ∀ tid, a.registers? tid = none ∨ b.registers? tid = none) :
      Rearranges (a :: b :: calls) (b :: a :: calls)
  | trans {calls middle calls' : List (Call F)} (first : Rearranges calls middle)
      (second : Rearranges middle calls') : Rearranges calls calls'

namespace Rearranges

variable {calls calls' : List (Call F)}

/-- A rearrangement has the same calls. -/
theorem perm (h : Rearranges calls calls') : calls.Perm calls' := by
  induction h with
  | refl => exact .refl _
  | cons c _ ih => exact ih.cons c
  | swap a b => exact .swap b a _
  | trans _ _ ihFirst ihSecond => exact ihFirst.trans ihSecond

/-- Rearranging keeps the first registration of an identifier. -/
theorem findSome?_eq (h : Rearranges calls calls') (tid : Tid) :
    calls.findSome? (·.registers? tid) = calls'.findSome? (·.registers? tid) := by
  induction h with
  | refl => rfl
  | cons c _ ih => rw [List.findSome?_cons, List.findSome?_cons, ih]
  | swap a b calls distinct =>
      simp only [List.findSome?_cons]
      rcases distinct tid with hnone | hnone <;> rw [hnone]
  | trans _ _ ihFirst ihSecond => exact ihFirst.trans ihSecond

end Rearranges

/-! ### Histories -/

/-- What a registry of any formats answers after any calls, and what a registration then does. -/
theorem reads_after_calls {F : Type} (policy : DuplicatePolicy) (calls : List (Call F)) :
    let registry := (empty policy).after calls
    (∀ tid, registry.lookup tid =
      match firstRegistered calls tid with
      | some format => .ok format
      | none => .error (.unknownType tid)) ∧
    (∀ tid, registry.contains tid = (firstRegistered calls tid).isSome) ∧
    (registry.tids.Pairwise (fun a b => compare a b = .lt) ∧
      ∀ tid, tid ∈ registry.tids ↔ ∃ format, registry.lookup tid = .ok format) ∧
    (registry.size = registry.tids.length ∧ registry.isEmpty = (registry.size == 0)) ∧
    (registry.frozen = true ↔ .freeze ∈ calls) ∧
    (∀ tid format,
      (.freeze ∈ calls →
        registry.step (.register tid format) = (.error (.registryFrozen tid), registry)) ∧
      (.freeze ∉ calls → registry.contains tid = true →
        registry.step (.register tid format) = (policy.outcome tid, registry)) ∧
      (.freeze ∉ calls → registry.contains tid = false →
        (registry.step (.register tid format)).1 = .ok ())) ∧
    (policy = .reject → (empty policy).accepted calls = registry.size) ∧
    (.freeze ∉ calls → ∀ calls', Rearranges calls calls' → ∀ later,
      ((empty policy).after calls').answers later = registry.answers later) := by
  intro registry
  -- Every answer is told by what the registry remembers of the calls.
  have h : Remembers registry policy calls := remembers_after_empty policy calls
  refine ⟨fun _ => h.lookup_eq, fun _ => h.contains_eq, ⟨Tid.pairwise_lt_sort h.distinct, ?_⟩,
    ⟨(length_tids registry).symm, ?_⟩, h.frozen, ?_, ?_, ?_⟩
  · intro tid
    rw [mem_tids_iff, h.contains_eq, h.lookup_eq]
    cases firstRegistered calls tid <;> simp
  · exact isEmpty_eq registry
  · intro tid format
    rw [step_register, h.policy]
    refine ⟨fun hfrozen => if_pos (h.frozen.2 hfrozen), ?_, ?_⟩
    · intro hopen htaken
      rw [if_neg (mt h.frozen.1 hopen), if_pos htaken]
    · intro hopen hfree
      rw [if_neg (mt h.frozen.1 hopen), if_neg (Bool.eq_false_iff.1 hfree)]
  · intro hreject
    subst hreject
    rw [size_after rfl]
    exact (Nat.zero_add _).symm
  -- Before the first freeze only first registrations count, and rearranging keeps these.
  · intro hopen calls' hrearranged later
    have hopen' : .freeze ∉ calls' := mt hrearranged.perm.mem_iff.2 hopen
    refine (remembers_after_empty policy calls').answers_eq h (iff_of_false hopen' hopen) ?_ later
    funext tid
    rw [firstRegistered_of_open hopen', firstRegistered_of_open hopen, hrearranged.findSome?_eq]

/-- Registrations of two identifiers. -/
def twoRegistrations : List Call :=
  [.register (Tid.root 9) .name, .register (Tid.root 7) .payload]

theorem reads_after_twoRegistrations :
    let registry := (empty .reject).after twoRegistrations
    let closed := (empty .reject).after (twoRegistrations ++ [.freeze])
    registry.tids = [Tid.root 7, Tid.root 9] ∧
      (empty .reject).accepted twoRegistrations = registry.size ∧
      registry.step (.register (Tid.root 9) .hashValue) =
        (.error (.duplicateRegistration (Tid.root 9)), registry) ∧
      (registry.step (.register (Tid.root 8) .hashValue)).1 = .ok () ∧
      closed.step (.register (Tid.root 9) .name) =
        (.error (.registryFrozen (Tid.root 9)), closed) ∧
      ((empty .reject).after twoRegistrations.reverse).answers [.tids, .freeze, .size] =
        registry.answers [.tids, .freeze, .size] := by
  intro registry closed
  have hopen : .freeze ∉ twoRegistrations := by decide
  have hclosed : .freeze ∈ twoRegistrations ++ [.freeze] := by decide
  have htaken : registry.contains (Tid.root 9) = true := by decide
  have hfree : registry.contains (Tid.root 8) = false := by decide
  have hswapped : Rearranges twoRegistrations twoRegistrations.reverse := by
    apply Rearranges.swap
    intro tid
    by_cases hnine : Tid.root 9 = tid
    · subst hnine
      exact .inr rfl
    · exact .inl (if_neg hnine)
  obtain ⟨-, -, -, -, -, hregister, haccepted, horder⟩ := reads_after_calls .reject twoRegistrations
  obtain ⟨-, -, -, -, -, hrefused, -, -⟩ :=
    reads_after_calls .reject (twoRegistrations ++ [.freeze])
  exact ⟨by cbv, haccepted rfl, (hregister _ _).2.1 hopen htaken,
    (hregister _ _).2.2 hopen hfree, (hrefused _ _).1 hclosed, horder hopen _ hswapped _⟩

end Registry

end CcnxPacket
