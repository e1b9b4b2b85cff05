import CcnxPacket.Proofs.Cursor

/-!
# What a walk reads

A visitor is faithful to a step relation when it succeeds exactly on a complete element ahead from
which the relation has a step. The walk of a container with such a visitor succeeds exactly when the
container's octets are those of a sequence of elements through which the relation has a run, and it
stops after them: a header that is seen past the container's end never makes it succeed.
-/

namespace CcnxPacket

/-- `Folds step s es s'`: the elements, one step each, lead from the first state to the last. -/
inductive Folds {σ : Type} (step : σ → Element → σ → Prop) : σ → List Element → σ → Prop where
  | nil (state : σ) : Folds step state [] state
  | cons {state middle final : σ} {e : Element} {es : List Element}
      (head : step state e middle) (tail : Folds step middle es final) :
      Folds step state (e :: es) final

/-- The visitor reads exactly the element ahead and moves its state by a step. -/
def Visits {σ : Type} (visit : σ → Header → Cursor → Except Error (σ × Cursor))
    (step : σ → Element → σ → Prop) : Prop :=
  ∀ ⦃state : σ⦄ ⦃header : Header⦄ ⦃c : Cursor⦄ ⦃result : σ⦄ ⦃next : Cursor⦄,
    header.octets <+: c.ahead →
      (visit state header c = .ok (result, next) ↔
        ∃ e : Element, e.header = header ∧ e.octets <+: c.ahead ∧ step state e result ∧
          next = c.advance e.size)

namespace Folds

variable {σ : Type} {step : σ → Element → σ → Prop} {state final : σ} {e : Element}
  {es : List Element}

/-- Folding over no elements changes nothing. -/
theorem nil_iff : Folds step state [] final ↔ final = state := by
  constructor
  · intro h
    cases h
    rfl
  · intro h
    subst h
    exact .nil _

/-- Folding over elements is a step for the first and folding over the rest. -/
theorem cons_iff :
    Folds step state (e :: es) final ↔
      ∃ middle, step state e middle ∧ Folds step middle es final := by
  constructor
  · intro h
    cases h with
    | cons head tail => exact ⟨_, head, tail⟩
  · intro h
    rcases h with ⟨middle, head, tail⟩
    exact .cons head tail

/-- A run can go on with one more step. -/
theorem append_singleton {middle : σ} (h : Folds step state es middle)
    (last : step middle e final) : Folds step state (es ++ [e]) final := by
  induction h with
  | nil state => exact .cons last (.nil _)
  | cons head _ ih => exact .cons head (ih last)

end Folds

section
variable {σ : Type} {container : Tid} {length left : Nat}
  {visit : σ → Header → Cursor → Except Error (σ × Cursor)} {step : σ → Element → σ → Prop}
  {state final : σ} {c next : Cursor}

/-- A walk that succeeds has read a sequence of elements that fills what was left. -/
theorem exists_folds_of_walk (hvisit : Visits visit step)
    (h : walk container length visit left state c = .ok (final, next)) :
    ∃ es, Element.concat es <+: c.ahead ∧ (Element.concat es).length = left ∧
      Folds step state es final ∧ next = c.advance left := by
  -- The walk's own recursion: each round takes an element off what is ahead and off what is left.
  induction left using Nat.strongRecOn generalizing state c with
  | ind left ih =>
      rw [walk] at h
      split at h
      · next hzero =>
          cases h
          exact ⟨[], List.nil_prefix, hzero.symm, .nil _, by rw [hzero, Cursor.advance_zero]⟩
      · next hleft =>
          cases hpeek : c.peekHeader with
          | error e => simp [hpeek] at h
          | ok header =>
              simp only [hpeek] at h
              split at h
              · cases h
              · next hroom =>
                  cases hone : visit state header c with
                  | error e => simp [hone] at h
                  | ok result =>
                      obtain ⟨middle, after⟩ := result
                      simp only [hone] at h
                      obtain ⟨e, rfl, he, hstep, rfl⟩ :=
                        (hvisit (Cursor.peekHeader_eq_ok_iff.1 hpeek)).1 hone
                      rw [Element.elementSize_header] at h hroom
                      have hpos := e.size_pos
                      obtain ⟨es, hes, hlength, hfolds, rfl⟩ := ih (left - e.size) (by omega) h
                      refine ⟨e :: es, ?_, ?_, .cons hstep hfolds, ?_⟩
                      · exact Cursor.append_starts_iff.2 ⟨he, hes⟩
                      · rw [Element.concat_cons, List.length_append, Element.length_octets, hlength]
                        omega
                      · rw [Cursor.advance_advance]
                        congr 1
                        omega

/-- One round of a walk visits the element ahead, and the walk goes on behind it. -/
theorem walk_of_starts {e : Element} (he : e.octets <+: c.ahead) (hleft : e.size ≤ left) :
    walk container length visit left state c =
      visit state e.header c >>= fun result =>
        walk container length visit (left - e.size) result.1 result.2 := by
  have hpos := e.size_pos
  have hzero : left ≠ 0 := by omega
  rw [walk, if_neg hzero, Cursor.peekHeader_eq_ok_iff.2 (Element.header_starts he)]
  simp only [Element.elementSize_header, if_neg (Nat.not_lt.2 hleft)]
  cases visit state e.header c <;> rfl

/-- A walk over a sequence of elements that fills what is left succeeds. -/
theorem walk_of_folds (hvisit : Visits visit step) {es : List Element}
    (hfolds : Folds step state es final) (hes : Element.concat es <+: c.ahead) :
    walk container length visit (Element.concat es).length state c =
      .ok (final, c.advance (Element.concat es).length) := by
  induction hfolds generalizing c with
  | nil state =>
      rw [walk]
      simp
  | @cons state middle final e es hstep _ ih =>
      obtain ⟨he, hrest⟩ := Cursor.append_starts_iff.1 hes
      have hone : visit state e.header c = .ok (middle, c.advance e.size) :=
        (hvisit (Element.header_starts he)).2 ⟨e, rfl, he, hstep, rfl⟩
      have hlength : (Element.concat (e :: es)).length = e.size + (Element.concat es).length := by
        simp
      rw [hlength, walk_of_starts he (Nat.le_add_right _ _), hone, Result.ok_bind,
        Nat.add_sub_cancel_left, ih hrest, Cursor.advance_advance]

/-- A walk ends at the first element that its visitor refuses. -/
theorem walk_of_refused (hvisit : Visits visit step) {es : List Element} {e : Element}
    {error : Error} (hfolds : Folds step state es final)
    (hes : Element.concat (es ++ [e]) <+: c.ahead)
    (hleft : (Element.concat (es ++ [e])).length ≤ left)
    (hrefused : visit final e.header (c.advance (Element.concat es).length) = .error error) :
    walk container length visit left state c = .error error := by
  induction hfolds generalizing c left with
  | nil state =>
      have he : e.octets <+: c.ahead := by simpa using hes
      have hroom : e.size ≤ left := by simpa using hleft
      rw [Element.concat_nil, List.length_nil, Cursor.advance_zero] at hrefused
      rw [walk_of_starts he hroom, hrefused, Result.error_bind]
  | @cons state middle final first es hstep _ ih =>
      obtain ⟨hfirst, hrest⟩ := Cursor.append_starts_iff.1 hes
      have hone : visit state first.header c = .ok (middle, c.advance first.size) :=
        (hvisit (Element.header_starts hfirst)).2 ⟨first, rfl, hfirst, hstep, rfl⟩
      rw [List.cons_append, Element.concat_cons, List.length_append, Element.length_octets] at hleft
      rw [Element.concat_cons, List.length_append, Element.length_octets,
        ← Cursor.advance_advance] at hrefused
      rw [walk_of_starts hfirst (by omega), hone, Result.ok_bind]
      exact ih hrest (by omega) hrefused

/-- A walk succeeds exactly on a sequence of elements that fills what is left of the container. -/
theorem walk_eq_ok_iff (hvisit : Visits visit step) :
    walk container length visit left state c = .ok (final, next) ↔
      ∃ es, Element.concat es <+: c.ahead ∧ (Element.concat es).length = left ∧
        Folds step state es final ∧ next = c.advance left := by
  constructor
  · exact exists_folds_of_walk hvisit
  · intro h
    rcases h with ⟨es, hes, rfl, hfolds, rfl⟩
    exact walk_of_folds hvisit hfolds hes

/-- The elements of a container are walked exactly when the value of the element ahead is theirs. -/
theorem elements_eq_ok_iff (hvisit : Visits visit step) {header : Header}
    (hheader : header.octets <+: c.ahead) :
    elements container header.length.toNat visit state (c.advance Header.width) =
        .ok (final, next) ↔
      ∃ e : Element, e.header = header ∧ e.octets <+: c.ahead ∧
        (∃ es, e.value = Element.concat es ∧ Folds step state es final) ∧
        next = c.advance e.size := by
  rw [elements, walk_eq_ok_iff hvisit, Cursor.advance_advance]
  constructor
  · intro h
    rcases h with ⟨es, hes, hlength, hfolds, rfl⟩
    have hroom : header.length.toNat ≤ (c.advance Header.width).ahead.length := by
      rw [← hlength]
      exact hes.length_le
    obtain ⟨e, rfl, he⟩ := (Cursor.value_ahead_iff hheader).1 hroom
    rw [Element.header_length] at hlength ⊢
    refine ⟨e, rfl, he, ⟨es, ?_, hfolds⟩, rfl⟩
    rw [List.prefix_iff_eq_take.1 hes, hlength, Cursor.ahead_of_starts he]
    exact List.take_left.symm
  · intro h
    rcases h with ⟨e, rfl, he, ⟨es, hvalue, hfolds⟩, rfl⟩
    rw [Element.header_length, Cursor.ahead_of_starts he]
    refine ⟨es, ?_, by rw [hvalue], hfolds, rfl⟩
    rw [hvalue]
    exact List.prefix_append _ _

end

end CcnxPacket
