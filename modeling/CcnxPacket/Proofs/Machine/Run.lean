import CcnxPacket.Octets
import CcnxPacket.Proofs.Result

/-!
# Runs on a machine with faults

The operations as a machine runs them whose numbers have 64 bits, and whose words, the types of
elements, have 16. It stops with a fault at a sum or a difference that is no such number, at octets
that are taken from where there are none, at an assertion that does not hold, and at a loop whose
counter of octets does not move as it has to. A fault is not a failure: a failure is an error that
the operation returns. Memory is taken to be enough.
-/

namespace CcnxPacket.Machine

/-- Why the machine stops. -/
inductive Fault where
  | overflow
  | underflow
  | outOfRange
  | assertion
  /-- The counter of a loop stands still or passes the end of the container. -/
  | counter
deriving DecidableEq, Repr

/-- What the machine computes: a value or an error, unless it stops. -/
abbrev Run (α : Type) : Type := ExceptT Error (Except Fault) α

/-! ### Steps that may stop the machine -/

/-- The sum of two numbers. -/
def add (m n : Nat) : Except Fault Nat :=
  if m + n < UInt64.size then .ok (m + n) else .error .overflow

/-- The difference of two numbers. -/
def sub (m n : Nat) : Except Fault Nat := if n ≤ m then .ok (m - n) else .error .underflow

/-- The sum of two words. -/
def addWord (m n : UInt16) : Except Fault UInt16 :=
  if m.toNat + n.toNat < UInt16.size then .ok (m + n) else .error .overflow

/-- The difference of two words. -/
def subWord (m n : UInt16) : Except Fault UInt16 :=
  if n ≤ m then .ok (m - n) else .error .underflow

/-- The octets from one offset up to another. -/
def slice (octets : Octets) (start stop : Nat) : Except Fault Octets :=
  if start ≤ stop ∧ stop ≤ octets.length then .ok ((octets.take stop).drop start)
  else .error .outOfRange

/-- The octet at an offset. -/
def index (octets : Octets) (i : Nat) : Except Fault UInt8 :=
  match octets[i]? with
  | some octet => .ok octet
  | none => .error .outOfRange

/-- A copy of the octets in an array of the given width. -/
def copyTo (width : Nat) (octets : Octets) : Except Fault Octets :=
  if octets.length = width then .ok octets else .error .outOfRange

/-- Goes on knowing that the proposition holds, and otherwise stops with the fault. -/
def demand (fault : Fault) (p : Prop) [Decidable p] : Except Fault (PLift p) :=
  if h : p then .ok ⟨h⟩ else .error fault

section
variable {m n : Nat} {octets : Octets}

theorem add_eq (h : m + n < UInt64.size) : add m n = .ok (m + n) := if_pos h

theorem sub_eq (h : n ≤ m) : sub m n = .ok (m - n) := if_pos h

theorem addWord_eq {m n : UInt16} (h : m.toNat + n.toNat < UInt16.size) :
    addWord m n = .ok (m + n) :=
  if_pos h

theorem subWord_eq {m n : UInt16} (h : n ≤ m) : subWord m n = .ok (m - n) := if_pos h

theorem slice_eq (hstart : m ≤ n) (hstop : n ≤ octets.length) :
    slice octets m n = .ok ((octets.take n).drop m) :=
  if_pos ⟨hstart, hstop⟩

theorem index_eq {i : Nat} (h : i < octets.length) : index octets i = .ok octets[i] := by
  simp [index, h]

theorem copyTo_eq {width : Nat} (h : octets.length = width) : copyTo width octets = .ok octets :=
  if_pos h

theorem demand_eq {fault : Fault} {p : Prop} [Decidable p] (h : p) : demand fault p = .ok ⟨h⟩ :=
  dif_pos h

end

/-! ### Runs that do not stop -/

/-- The machine does not stop, and it ends as `y` does, its value standing for that of `y`. -/
def RunsAs {α β : Type} (φ : β → α) (x : Run α) (y : Except Error β) : Prop :=
  x.run = .ok (y.map φ)

namespace RunsAs

variable {α α' β β' : Type} {φ : β → α} {ψ : β' → α'} {x : Run α} {y : Except Error β}
  {f : α → Run α'} {g : β → Except Error β'}

theorem pure {a : α} {b : β} (h : a = φ b) : RunsAs φ (Pure.pure a) (.ok b) := by
  subst h
  rfl

theorem throw (e : Error) : RunsAs φ (MonadExcept.throw e) (.error e) := rfl

/-- What only computes, without the machine's numbers, runs as it is. -/
theorem lift (x : Except Error α) : RunsAs id (liftM x : Run α) x := by
  cases x <;> rfl

/-- A chain runs as another when its steps run as those of the other. -/
theorem bind (hx : RunsAs φ x y) (hf : ∀ b, y = .ok b → RunsAs ψ (f (φ b)) (g b)) :
    RunsAs ψ (x >>= f) (y >>= g) := by
  unfold RunsAs at *
  rw [ExceptT.run_bind, hx]
  cases y with
  | error e => rfl
  | ok b => exact hf b rfl

/-- A step that does not stop the machine comes first. -/
theorem step {γ : Type} {op : Except Fault γ} {a : γ} {next : γ → Run α} (hop : op = .ok a)
    (h : RunsAs φ (next a) y) : RunsAs φ (liftM op >>= next) y := by
  subst hop
  exact h

/-- An operation without a fault runs as its result. -/
theorem last {op : Except Fault α} {b : β} (hop : op = .ok (φ b)) :
    RunsAs φ (liftM op) (.ok b) := by
  subst hop
  rfl

theorem run_bind_of_ok {a : α} (hx : x.run = .ok (.ok a)) : (x >>= f).run = (f a).run := by
  rw [ExceptT.run_bind, hx]
  rfl

theorem run_bind_of_error {e : Error} (hx : x.run = .ok (.error e)) :
    (x >>= f).run = .ok (.error e) := by
  rw [ExceptT.run_bind, hx]
  rfl

/-- A value may stand for what becomes of that of `y`. -/
theorem through {φ' : β' → α} {k : β → β'} (hx : RunsAs φ x y) (h : ∀ b, φ b = φ' (k b)) :
    RunsAs φ' x (y >>= fun b => .ok (k b)) := by
  unfold RunsAs at *
  rw [hx]
  cases y with
  | error e => rfl
  | ok b => exact congrArg (fun a => Except.ok (Except.ok a)) (h b)

/-- Changing results keeps what runs as what. -/
theorem map {h : α → α'} {k : β → β'} (hx : RunsAs φ x y) (hmap : ∀ b, h (φ b) = ψ (k b)) :
    RunsAs ψ (x >>= fun a => Pure.pure (h a)) (y.map k) := by
  have hbind : y.map k = y >>= fun b => .ok (k b) := by
    cases y <;> rfl
  rw [hbind]
  exact hx.bind fun b _ => pure (hmap b)

/-- A choice runs as the choice between what its branches run as. -/
theorem ite {p : Prop} [Decidable p] {x' : Run α} {y' : Except Error β}
    (hx : p → RunsAs φ x y) (hx' : ¬ p → RunsAs φ x' y') :
    RunsAs φ (if p then x else x') (if p then y else y') := by
  by_cases hp : p
  · rw [if_pos hp, if_pos hp]
    exact hx hp
  · rw [if_neg hp, if_neg hp]
    exact hx' hp

end RunsAs

/-! ### Runs along with a state -/

/-- What the machine computes along with a state: a failure leaves the state as it was then. -/
abbrev StateRun (σ α : Type) : Type := ExceptT Error (StateT σ (Except Fault)) α

namespace StateRun

variable {σ α β : Type} {x : StateRun σ α} {f : α → StateRun σ β} {s after : σ}

theorem run_bind_of_ok {a : α} (h : StateT.run (ExceptT.run x) s = .ok (.ok a, after)) :
    StateT.run (ExceptT.run (x >>= f)) s = StateT.run (ExceptT.run (f a)) after := by
  rw [ExceptT.run_bind, StateT.run_bind, h]
  rfl

theorem run_bind_of_error {e : Error} (h : StateT.run (ExceptT.run x) s = .ok (.error e, after)) :
    StateT.run (ExceptT.run (x >>= f)) s = .ok (.error e, after) := by
  rw [ExceptT.run_bind, StateT.run_bind, h]
  rfl

end StateRun

end CcnxPacket.Machine
