import CcnxPacket.Proofs.Slots
import Mathlib.Data.List.Nodup

/-!
# Elements in a given order

Elements that may come in any order are written in one order, that of their types. What elements
stand for tells how they are arranged: the arrangement of elements that supply values in the order
of their types is, one for one, the elements of these values.
-/

namespace CcnxPacket.Element

/-- The elements of the given types, in the order of the types. -/
def arrange (types : List UInt16) (es : List Element) : List Element :=
  types.flatMap fun type => es.filter fun e => e.type = type

variable {types : List UInt16} {type : UInt16} {es es' : List Element} {e : Element}

theorem arrange_cons : arrange (type :: types) es =
    (es.filter fun e => e.type = type) ++ arrange types es := rfl

/-- Arranging keeps the elements of the types asked for and no others. -/
theorem mem_arrange_iff : e ∈ arrange types es ↔ e ∈ es ∧ e.type ∈ types := by
  simp [arrange, and_comm]

/-- The octets of elements are as many in any order. -/
theorem length_concat_of_perm (h : es.Perm es') : (concat es).length = (concat es').length :=
  (h.flatMap_right octets).length_eq

/-- Elements that supply values are arranged as the values are, when these are in the order of the
types. -/
theorem forall₂_arrange {β : Type} (means : UInt16 → Element → β → Prop)
    {values : List (UInt16 × β)} (htypes : types.Nodup)
    (hordered : (values.map Prod.fst).Sublist types)
    (hsupplies : ∀ type ∈ types, Supplies es type (means type) (values.lookup type)) :
    List.Forall₂ (fun e value => e.type = value.1 ∧ means value.1 e value.2)
      (arrange types es) values := by
  induction types generalizing values with
  | nil =>
      rw [List.sublist_nil, List.map_eq_nil_iff] at hordered
      subst hordered
      exact .nil
  | cons type types ih =>
      obtain ⟨hfresh, hrest⟩ := List.nodup_cons.1 htypes
      rw [List.forall_mem_cons] at hsupplies
      obtain ⟨hfirst, hothers⟩ := hsupplies
      rw [arrange_cons]
      -- The first type has no value, or the first of the values.
      rcases List.sublist_cons_iff.1 hordered with hlater | ⟨more, hmore, hlater⟩
      · have hnone : values.lookup type = none :=
          lookup_eq_none_of_fresh fun hmem => hfresh (hlater.subset hmem)
        rw [hnone, Supplies, Option.toList_none, List.forall₂_nil_right_iff] at hfirst
        rw [hfirst]
        exact ih hrest hlater hothers
      · obtain ⟨⟨key, value⟩, values, rfl, hkey, rfl⟩ := List.map_eq_cons_iff.1 hmore
        have hkey : key = type := hkey
        subst hkey
        rw [List.lookup_cons_self] at hfirst
        obtain ⟨e, hfilter, hmeans⟩ := supplies_some_iff.1 hfirst
        have he : e ∈ es.filter fun e => e.type = key := by simp [hfilter]
        have htype : e.type = key := by simpa using (List.mem_filter.1 he).2
        rw [hfilter]
        refine .cons ⟨htype, hmeans⟩ (ih hrest hlater ?_)
        intro type htype
        have hne : type ≠ key := fun hsame => hfresh (hsame ▸ htype)
        have hsupplies := hothers type htype
        rwa [List.lookup_cons, beq_false_of_ne hne] at hsupplies

/-- Elements of distinct types are arranged so that their types are in order. -/
theorem types_arrange_sublist (hdistinct : (es.map Element.type).Nodup) :
    ((arrange types es).map Element.type).Sublist types := by
  induction types with
  | nil => exact List.Sublist.slnil
  | cons type types ih =>
      have hfirst : ((es.filter fun e => e.type = type).map Element.type).Sublist [type] := by
        by_cases h : ∃ e ∈ es, e.type = type
        · obtain ⟨e, he, rfl⟩ := h
          rw [filter_eq_singleton hdistinct he]
          exact List.Sublist.refl _
        · have hnone : (es.filter fun e => e.type = type) = [] := by
            rw [List.filter_eq_nil_iff]
            intro e he htype
            exact h ⟨e, he, by simpa using htype⟩
          rw [hnone]
          exact List.nil_sublist _
      rw [arrange_cons, List.map_append]
      exact hfirst.append ih

/-- With a type for each element, and each type once, arranging only changes the order. -/
theorem arrange_perm (htypes : types.Nodup) (hdistinct : (es.map Element.type).Nodup)
    (hknown : ∀ e ∈ es, e.type ∈ types) : (arrange types es).Perm es := by
  have harranged : (arrange types es).Nodup :=
    List.Nodup.of_map _ ((types_arrange_sublist hdistinct).nodup htypes)
  rw [List.perm_ext_iff_of_nodup harranged (List.Nodup.of_map _ hdistinct)]
  intro e
  rw [mem_arrange_iff]
  exact and_iff_left_of_imp (hknown e)

/-- Elements that are in order already are left as they are. -/
theorem arrange_eq_self (htypes : types.Nodup) (hordered : (es.map Element.type).Sublist types) :
    arrange types es = es := by
  have hdistinct := hordered.nodup htypes
  let values := es.map fun e => (e.type, e)
  have hkeys : values.map Prod.fst = es.map Element.type := by simp [values]
  have hsame : List.Forall₂ (fun e value => e.type = value.1 ∧ e = value.2) es values :=
    List.forall₂_map_right_iff.2 (List.forall₂_same.2 fun e _ => ⟨rfl, rfl⟩)
  rw [← hkeys] at hdistinct hordered
  have hall := forall₂_arrange (fun _ e value => e = value) htypes hordered
    fun type _ => supplies_lookup (fun _ e value => e = value) hsame hdistinct
  have heq := (List.forall₂_map_right_iff.1 hall).imp fun e e' h => h.2
  rwa [List.forall₂_eq_eq_eq] at heq

/-- Elements stay as they are when they are altered one by one and arranged, exactly if they are
in order and none of them is changed. -/
theorem map_arrange_eq_self_iff {alter : Element → Element}
    (htype : ∀ e, (alter e).type = e.type) (htypes : types.Nodup)
    (hdistinct : (es.map Element.type).Nodup) :
    (arrange types es).map alter = es ↔
      (es.map Element.type).Sublist types ∧ ∀ e ∈ es, alter e = e := by
  have hunchanged : es.map alter = es ↔ ∀ e ∈ es, alter e = e := by
    nth_rewrite 2 [← List.map_id es]
    exact List.map_inj_left
  constructor
  · intro h
    have hkept : es.map Element.type = (arrange types es).map Element.type := by
      nth_rewrite 1 [← h]
      simp [htype]
    have hordered : (es.map Element.type).Sublist types := by
      rw [hkept]
      exact types_arrange_sublist hdistinct
    rw [arrange_eq_self htypes hordered] at h
    exact ⟨hordered, hunchanged.1 h⟩
  · intro h
    obtain ⟨hordered, hkept⟩ := h
    rw [arrange_eq_self htypes hordered]
    exact hunchanged.2 hkept

end CcnxPacket.Element
