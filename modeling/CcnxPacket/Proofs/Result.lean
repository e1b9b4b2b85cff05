import CcnxPacket.Error

/-!
# Results

How a chain of steps that may fail ends. A chain succeeds when every step of it does, and a failure
of the chain is the failure of one of its steps, so a property that every step's failures have is
one that the chain's failures have (`FailsOnly`).
-/

namespace CcnxPacket.Result

variable {α β : Type}

@[simp] theorem ok_bind (a : α) (f : α → Except Error β) : (Except.ok a >>= f) = f a := rfl

@[simp] theorem error_bind (e : Error) (f : α → Except Error β) :
    (Except.error e >>= f) = .error e := rfl

@[simp] theorem pure_eq_ok (a : α) : (pure a : Except Error α) = .ok a := rfl

@[simp] theorem throw_eq_error (e : Error) : (throw e : Except Error α) = .error e := rfl

@[simp] theorem map_ok (f : α → β) (a : α) : (Except.ok a : Except Error α).map f = .ok (f a) := rfl

@[simp] theorem map_error (f : α → β) (e : Error) :
    (Except.error e : Except Error α).map f = .error e := rfl

/-- A chain of two steps succeeds when both do. -/
theorem bind_eq_ok_iff {x : Except Error α} {f : α → Except Error β} {b : β} :
    (x >>= f) = .ok b ↔ ∃ a, x = .ok a ∧ f a = .ok b := by
  cases x with
  | error e => simp
  | ok a => simp

theorem map_eq_ok_iff {x : Except Error α} {f : α → β} {b : β} :
    x.map f = .ok b ↔ ∃ a, x = .ok a ∧ f a = b := by
  cases x with
  | error e => simp
  | ok a => simp

/-- A chain of two steps fails with the failure of the first or, after it, of the second. -/
theorem bind_eq_error_iff {x : Except Error α} {f : α → Except Error β} {e : Error} :
    (x >>= f) = .error e ↔ x = .error e ∨ ∃ a, x = .ok a ∧ f a = .error e := by
  cases x with
  | error e' => simp
  | ok a => simp

/-! ### Chains over a state -/

section
variable {σ : Type} {x : ExceptT Error (StateM σ) α} {f : α → ExceptT Error (StateM σ) β}
  {s after : σ}

theorem run_bind_of_ok {a : α} (h : x.run.run s = (.ok a, after)) :
    (x >>= f).run.run s = (f a).run.run after := by
  rw [ExceptT.run_bind, StateT.run_bind, h]
  rfl

/-- A failure ends the chain, and the state stays as it is then. -/
theorem run_bind_of_error {e : Error} (h : x.run.run s = (.error e, after)) :
    (x >>= f).run.run s = (.error e, after) := by
  rw [ExceptT.run_bind, StateT.run_bind, h]
  rfl

end

/-! ### Properties of failures -/

/-- Every failure of `x` has the property. -/
def FailsOnly (p : Error → Prop) (x : Except Error α) : Prop := ∀ e, x = .error e → p e

namespace FailsOnly

variable {p : Error → Prop}

theorem ok (a : α) : FailsOnly p (Except.ok a) := by
  intro e h
  cases h

theorem error {e : Error} (h : p e) : FailsOnly p (Except.error e : Except Error α) := by
  intro e' he
  cases he
  exact h

/-- A chain fails as its steps do. -/
theorem bind {x : Except Error α} {f : α → Except Error β} (hx : FailsOnly p x)
    (hf : ∀ a, x = .ok a → FailsOnly p (f a)) : FailsOnly p (x >>= f) := by
  intro e h
  rcases bind_eq_error_iff.1 h with h | ⟨a, ha, h⟩
  · exact hx e h
  · exact hf a ha e h

theorem map {x : Except Error α} (f : α → β) (hx : FailsOnly p x) : FailsOnly p (x.map f) := by
  cases x with
  | error e => exact error (hx e rfl)
  | ok a => exact ok (f a)

end FailsOnly

end CcnxPacket.Result
