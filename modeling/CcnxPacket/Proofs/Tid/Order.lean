import CcnxPacket.Tid

/-!
# The order of type identifiers

Identifiers are ordered as the lists of their components are, so the order is total and identifiers
that it does not tell apart are equal. A sorted list of distinct identifiers therefore ascends
strictly, and it does not depend on the order in which the identifiers were given.
-/

namespace CcnxPacket.Tid

instance : Std.TransOrd Tid where
  eq_swap := Std.OrientedOrd.eq_swap (α := List UInt32)
  isLE_trans := Std.TransOrd.isLE_trans (α := List UInt32)

instance : Std.LawfulEqOrd Tid where
  eq_of_compare {a b} h := by
    have hcomponents : a.components = b.components := Std.LawfulEqOrd.eq_of_compare h
    cases a
    cases b
    simpa using hcomponents

theorem le_trans {a b c : Tid} (hab : a.le b = true) (hbc : b.le c = true) : a.le c = true :=
  Std.TransOrd.isLE_trans hab hbc

theorem le_total (a b : Tid) : (a.le b || b.le a) = true := by
  rw [Bool.or_eq_true, le, le, Std.OrientedOrd.eq_swap (a := b)]
  cases compare a b <;> decide

theorem le_antisymm {a b : Tid} (hab : a.le b = true) (hba : b.le a = true) : a = b :=
  Std.LawfulEqOrd.eq_of_compare (Std.OrientedCmp.isLE_antisymm hab hba)

/-- Of two different identifiers in order, the first is less. -/
theorem compare_eq_lt {a b : Tid} (h : a.le b = true) (hne : a ≠ b) : compare a b = .lt := by
  have heq : compare a b ≠ .eq := fun heq => hne (Std.LawfulEqOrd.eq_of_compare heq)
  unfold le at h
  cases hcompare : compare a b <;> simp_all

/-! ### Sorted lists -/

/-- Sorting only changes the order. -/
theorem sort_perm (tids : List Tid) : (sort tids).Perm tids :=
  List.mergeSort_perm _ _

theorem mem_sort {tids : List Tid} {tid : Tid} : tid ∈ sort tids ↔ tid ∈ tids :=
  (sort_perm tids).mem_iff

theorem length_sort (tids : List Tid) : (sort tids).length = tids.length :=
  (sort_perm tids).length_eq

/-- Sorted identifiers stand in ascending order. -/
theorem pairwise_le_sort (tids : List Tid) : (sort tids).Pairwise fun a b => a.le b = true :=
  @List.pairwise_mergeSort Tid le (fun _ _ _ => le_trans) le_total tids

/-- Distinct identifiers, once sorted, ascend strictly. -/
theorem pairwise_lt_sort {tids : List Tid} (h : tids.Nodup) :
    (sort tids).Pairwise fun a b => compare a b = .lt := by
  have hdistinct : (sort tids).Nodup := (sort_perm tids).nodup_iff.2 h
  exact ((pairwise_le_sort tids).and hdistinct).imp fun hboth => compare_eq_lt hboth.1 hboth.2

/-- Sorting forgets the order that the identifiers came in. -/
theorem sort_eq_of_perm {tids tids' : List Tid} (h : tids.Perm tids') : sort tids = sort tids' := by
  have hperm : (sort tids).Perm (sort tids') :=
    (sort_perm tids).trans (h.trans (sort_perm tids').symm)
  exact hperm.eq_of_pairwise (fun _ _ _ _ => le_antisymm) (pairwise_le_sort tids)
    (pairwise_le_sort tids')

end CcnxPacket.Tid
