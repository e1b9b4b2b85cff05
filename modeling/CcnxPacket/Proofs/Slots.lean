import CcnxPacket.Proofs.Container
import Mathlib.Data.List.Forall2

/-!
# Elements by type

The fields of a message and the parts of a validation algorithm are elements that may come in any
order, each type at most once. A state that records such elements has a slot for each type, and a
step fills the empty slot of its element's type. What a run leaves in a slot then depends only on
the elements of that type (`Supplies`), of which there are none or one.
-/

namespace CcnxPacket

/-- Among the elements, those of the given type, none or one, stand for the value. -/
def Supplies {α : Type} (es : List Element) (type : UInt16) (means : Element → α → Prop)
    (value : Option α) : Prop :=
  List.Forall₂ means (es.filter fun e => e.type = type) value.toList

/-- The elements take a slot that holds `old` to one that holds `new`. -/
def Updates {α : Type} (es : List Element) (type : UInt16) (means : Element → α → Prop) :
    (old new : Option α) → Prop
  | none, new => Supplies es type means new
  | some value, new => new = some value ∧ (es.filter fun e => e.type = type) = []

/-- Each step fills the empty slot of its element's type with what the element means, and there is a
step whenever the slot is empty and the element means something. -/
structure Records {σ β : Type} (types : List UInt16) (slot : σ → UInt16 → Option β)
    (means : UInt16 → Element → β → Prop) (step : σ → Element → σ → Prop) : Prop where
  filled : ∀ {state e after}, step state e after →
    e.type ∈ types ∧ slot state e.type = none ∧ ∃ value, means e.type e value ∧
      ∀ type, slot after type = if type = e.type then some value else slot state type
  fills : ∀ {state e value}, e.type ∈ types → slot state e.type = none → means e.type e value →
    ∃ after, step state e after ∧
      ∀ type, slot after type = if type = e.type then some value else slot state type

section
variable {α : Type} {type : UInt16} {means : Element → α → Prop} {e : Element}
  {es es' : List Element} {value old new : Option α}

/-- Nothing is supplied when there is no element of the type. -/
theorem supplies_none_iff : Supplies es type means none ↔ ∀ e ∈ es, e.type ≠ type := by
  simp [Supplies]

/-- One element of the type stands for the value, and no other has the type. -/
theorem supplies_some_iff {a : α} :
    Supplies es type means (some a) ↔
      ∃ e, (es.filter fun e => e.type = type) = [e] ∧ means e a := by
  simp [Supplies, List.forall₂_cons_right_iff, and_comm]

theorem updates_nil_iff : Updates [] type means old new ↔ new = old := by
  cases old with
  | none => simp [Updates, Supplies]
  | some value => simp [Updates]

theorem updates_cons_iff_of_ne (h : e.type ≠ type) :
    Updates (e :: es) type means old new ↔ Updates es type means old new := by
  cases old with
  | none => simp [Updates, Supplies, h]
  | some value => simp [Updates, h]

theorem updates_cons_iff_of_eq (h : e.type = type) :
    Updates (e :: es) type means old new ↔
      old = none ∧ ∃ a, means e a ∧ Updates es type means (some a) new := by
  cases old with
  | some value => simp [Updates, h]
  | none =>
      simp only [Updates, Supplies, h, decide_true, List.filter_cons_of_pos, true_and]
      cases new with
      | none => simp
      | some a => simp

/-- Of what elements mean, only what they mean by the supplied value counts. -/
theorem supplies_congr {means' : Element → α → Prop}
    (h : ∀ e a, value = some a → (means e a ↔ means' e a)) :
    Supplies es type means value ↔ Supplies es type means' value := by
  cases value with
  | none => simp [supplies_none_iff]
  | some a => simp [supplies_some_iff, h]

theorem supplies_map_iff {β : Type} {f : β → α} {value : Option β} :
    Supplies es type means (value.map f) ↔ Supplies es type (fun e b => means e (f b)) value := by
  cases value with
  | none => simp [supplies_none_iff]
  | some b => simp [supplies_some_iff]

/-- Where something is supplied, there is at most one element of the type. -/
theorem Supplies.length_filter_le (h : Supplies es type means value) :
    (es.filter fun e => e.type = type).length ≤ 1 := by
  rw [List.Forall₂.length_eq h]
  cases value <;> simp

/-- Elements of which no two have the same type are those that have distinct types. -/
theorem nodup_of_length_filter_le
    (h : ∀ type, (es.filter fun e => e.type = type).length ≤ 1) : (es.map Element.type).Nodup := by
  induction es with
  | nil => exact List.nodup_nil
  | cons e es ih =>
      have hfirst := h e.type
      rw [List.filter_cons_of_pos (by simp), List.length_cons] at hfirst
      have hnone : (es.filter fun e' => e'.type = e.type) = [] :=
        List.eq_nil_of_length_eq_zero (by omega)
      rw [List.map_cons, List.nodup_cons]
      constructor
      · intro hmem
        obtain ⟨e', he', htype⟩ := List.mem_map.1 hmem
        exact List.filter_eq_nil_iff.1 hnone e' he' (by simp [htype])
      · apply ih
        intro type
        apply Nat.le_trans _ (h type)
        exact ((List.sublist_cons_self e es).filter _).length_le

/-- With a type for each element, an element is the only one of its type. -/
theorem filter_eq_singleton (hdistinct : (es.map Element.type).Nodup) (he : e ∈ es) :
    (es.filter fun e' => e'.type = e.type) = [e] := by
  induction es with
  | nil => cases he
  | cons first rest ih =>
      rw [List.map_cons, List.nodup_cons] at hdistinct
      obtain ⟨hfresh, hrest⟩ := hdistinct
      rcases List.mem_cons.1 he with rfl | he
      · have hnone : (rest.filter fun e' => e'.type = e.type) = [] := by
          rw [List.filter_eq_nil_iff]
          intro e' he' htype
          exact hfresh (List.mem_map.2 ⟨e', he', by simpa using htype⟩)
        rw [List.filter_cons_of_pos (by simp), hnone]
      · have hne : first.type ≠ e.type := by
          intro htype
          exact hfresh (List.mem_map.2 ⟨e, he, htype.symm⟩)
        rw [List.filter_cons_of_neg (by simpa using hne)]
        exact ih hrest he

theorem type_mem_of_forall₂ {β : Type} {means : Element → UInt16 × β → Prop}
    {values : List (UInt16 × β)} {types : List UInt16} (h : List.Forall₂ means es values)
    (htype : ∀ e value, means e value → e.type = value.1)
    (hknown : ∀ value ∈ values, value.1 ∈ types) : ∀ e ∈ es, e.type ∈ types := by
  induction h with
  | nil => simp
  | cons hhead _ ih =>
      rw [List.forall_mem_cons] at hknown ⊢
      exact ⟨htype _ _ hhead ▸ hknown.1, ih hknown.2⟩

theorem lookup_eq_none_of_fresh {β : Type} {values : List (UInt16 × β)}
    (h : type ∉ values.map Prod.fst) : values.lookup type = none := by
  rw [List.lookup_eq_none_iff]
  intro value hvalue
  simp only [bne_iff_ne]
  intro hsame
  exact h (List.mem_map.2 ⟨value, hvalue, hsame.symm⟩)

/-- Elements that stand for values of distinct types supply what the list of the values holds. -/
theorem supplies_lookup {β : Type} (means : UInt16 → Element → β → Prop)
    {values : List (UInt16 × β)}
    (h : List.Forall₂ (fun e value => e.type = value.1 ∧ means value.1 e value.2) es values)
    (hdistinct : (values.map Prod.fst).Nodup) :
    Supplies es type (means type) (values.lookup type) := by
  induction h with
  | nil => exact .nil
  | @cons e value es values hhead _ ih =>
      obtain ⟨htype, hmeans⟩ := hhead
      rw [List.map_cons, List.nodup_cons] at hdistinct
      obtain ⟨hfresh, hrest⟩ := hdistinct
      have hothers := ih hrest
      rw [List.lookup_cons]
      by_cases heq : type = value.1
      · subst heq
        rw [lookup_eq_none_of_fresh hfresh, supplies_none_iff] at hothers
        rw [beq_self_eq_true]
        refine supplies_some_iff.2 ⟨e, ?_, hmeans⟩
        rw [List.filter_cons_of_pos (by simpa using htype)]
        congr 1
        rw [List.filter_eq_nil_iff]
        intro e' he'
        simpa using hothers e' he'
      · rw [beq_false_of_ne heq, Supplies, List.filter_cons_of_neg]
        · exact hothers
        · rw [htype]
          simpa using Ne.symm heq

/-- The order of the elements does not matter. -/
theorem Supplies.perm (hperm : es.Perm es') (h : Supplies es type means value) :
    Supplies es' type means value := by
  have hfilter := hperm.filter fun e => decide (e.type = type)
  cases value with
  | none =>
      rw [supplies_none_iff] at h ⊢
      intro e he
      exact h e (hperm.mem_iff.2 he)
  | some a =>
      obtain ⟨e, heq, hmeans⟩ := supplies_some_iff.1 h
      rw [heq] at hfilter
      exact supplies_some_iff.2 ⟨e, (List.singleton_perm.1 hfilter).symm, hmeans⟩

end

namespace Records

variable {σ β : Type} {types : List UInt16} {slot : σ → UInt16 → Option β}
  {means : UInt16 → Element → β → Prop} {step : σ → Element → σ → Prop} {state : σ}
  {es : List Element} {values : UInt16 → Option β}

/-- What a slot holds after a run it held before, or an element of the run stands for it. -/
theorem slot_of_folds (h : Records types slot means step) {final : σ} {type : UInt16} {value : β}
    (hfolds : Folds step state es final) (hslot : slot final type = some value) :
    slot state type = some value ∨ ∃ e ∈ es, e.type = type ∧ means type e value := by
  induction hfolds with
  | nil state => exact .inl hslot
  | @cons state middle final e es head tail ih =>
      rcases ih hslot with hmiddle | ⟨e', he', hmeans⟩
      · obtain ⟨-, -, made, hmade, hfills⟩ := h.filled head
        rw [hfills] at hmiddle
        split at hmiddle
        · next htype =>
            cases hmiddle
            exact .inr ⟨e, List.mem_cons_self, htype.symm, htype ▸ hmade⟩
        · exact .inl hmiddle
      · exact .inr ⟨e', List.mem_cons_of_mem e he', hmeans⟩

/-- A run changes each slot on its own. -/
theorem exists_folds_iff (h : Records types slot means step) :
    (∃ final, Folds step state es final ∧ ∀ type ∈ types, slot final type = values type) ↔
      (∀ e ∈ es, e.type ∈ types) ∧
        ∀ type ∈ types, Updates es type (means type) (slot state type) (values type) := by
  -- The first element fills the slot of its type, and the others find that slot taken.
  induction es generalizing state with
  | nil =>
      simp [Folds.nil_iff, updates_nil_iff, eq_comm]
  | cons e es ih =>
      constructor
      · intro hrun
        rcases hrun with ⟨final, hfolds, hfinal⟩
        obtain ⟨middle, hstep, htail⟩ := Folds.cons_iff.1 hfolds
        obtain ⟨hknown, hempty, value, hmeans, hslot⟩ := h.filled hstep
        obtain ⟨hothers, hupdates⟩ := ih.1 ⟨final, htail, hfinal⟩
        refine ⟨by simpa [hknown] using hothers, ?_⟩
        intro type htype
        have hupdate := hupdates type htype
        rw [hslot] at hupdate
        by_cases heq : type = e.type
        · subst heq
          rw [if_pos rfl] at hupdate
          exact (updates_cons_iff_of_eq rfl).2 ⟨hempty, value, hmeans, hupdate⟩
        · rw [if_neg heq] at hupdate
          exact (updates_cons_iff_of_ne (Ne.symm heq)).2 hupdate
      · intro hslots
        rcases hslots with ⟨hknown, hupdates⟩
        have hhead : e.type ∈ types := hknown e List.mem_cons_self
        obtain ⟨hempty, value, hmeans, hrest⟩ :=
          (updates_cons_iff_of_eq rfl).1 (hupdates e.type hhead)
        obtain ⟨middle, hstep, hslot⟩ := h.fills hhead hempty hmeans
        have htail : ∃ final, Folds step middle es final ∧
            ∀ type ∈ types, slot final type = values type := by
          apply ih.2
          refine ⟨fun other hother => hknown other (List.mem_cons_of_mem _ hother), ?_⟩
          intro type htype
          rw [hslot]
          by_cases heq : type = e.type
          · subst heq
            rw [if_pos rfl]
            exact hrest
          · rw [if_neg heq]
            exact (updates_cons_iff_of_ne (Ne.symm heq)).1 (hupdates type htype)
        obtain ⟨final, hfolds, hfinal⟩ := htail
        exact ⟨final, .cons hstep hfolds, hfinal⟩

/-- A run from empty slots fills each with what the elements supply for it. -/
theorem exists_folds_iff_supplies (h : Records types slot means step)
    (hempty : ∀ type, slot state type = none) :
    (∃ final, Folds step state es final ∧ ∀ type ∈ types, slot final type = values type) ↔
      (∀ e ∈ es, e.type ∈ types) ∧
        ∀ type ∈ types, Supplies es type (means type) (values type) := by
  rw [h.exists_folds_iff]
  simp only [hempty, Updates]

end Records

end CcnxPacket
