import Mathlib.Data.List.Basic
import Mathlib.Logic.Relation

/-!
# The order of paths

A path is a list of components, and paths are compared as lists: the first component in which two of
them differ decides, and a path comes before those that extend it. The order is total and follows
the tree of extensions. A path is never greater than one that extends it, and what lies between two
extensions of a path extends it too, so in a sorted list the members of a subtree stand together,
directly behind its root.
-/

namespace CcnxPacket

/-! ### Lists of components -/

section
variable {β : Type} [Ord β] {xs ys zs : List β}

/-- The first difference decides, and a list comes before those that extend it. -/
theorem compare_eq_lt_iff_lex [Std.LawfulEqOrd β] {before : β → β → Prop}
    (h : ∀ x y, compare x y = .lt ↔ before x y) :
    compare xs ys = .lt ↔ List.Lex before xs ys := by
  induction xs generalizing ys with
  | nil =>
      cases ys with
      | nil => simp
      | cons y ys => simp [List.compare_nil_cons]
  | cons x xs ih =>
      cases ys with
      | nil => simp [List.compare_cons_nil]
      | cons y ys =>
          rw [List.compare_cons_cons, Ordering.then_eq_lt, ih, h, Std.LawfulEqOrd.compare_eq_iff_eq]
          constructor
          · rintro (hless | ⟨rfl, htail⟩)
            · exact .rel hless
            · exact .cons htail
          · intro hlex
            cases hlex with
            | rel hless => exact .inl hless
            | cons htail => exact .inr ⟨rfl, htail⟩

/-- What lists have in common in front does not count. -/
theorem compare_append_append [Std.ReflOrd β] (front : List β) :
    compare (front ++ xs) (front ++ ys) = compare xs ys := by
  induction front with
  | nil => rfl
  | cons x front ih =>
      rw [List.cons_append, List.cons_append, List.compare_cons_cons, Std.ReflOrd.compare_self, ih]
      rfl

/-- A list comes before those that extend it. -/
theorem compare_eq_lt_of_prefix [Std.ReflOrd β] (h : xs <+: ys) (hne : xs ≠ ys) :
    compare xs ys = .lt := by
  obtain ⟨rest, rfl⟩ := h
  cases rest with
  | nil => exact absurd (List.append_nil xs).symm hne
  | cons y rest =>
      calc compare xs (xs ++ y :: rest)
          = compare (xs ++ []) (xs ++ y :: rest) := by rw [List.append_nil]
        _ = compare [] (y :: rest) := compare_append_append xs
        _ = .lt := List.compare_nil_cons

/-- What lies between two lists that extend a third one extends it as well. -/
theorem prefix_of_between [Std.OrientedOrd β] [Std.LawfulEqOrd β] {front : List β}
    (hx : front <+: xs) (hz : front <+: zs) (hxy : (compare xs ys).isLE)
    (hyz : (compare ys zs).isLE) : front <+: ys := by
  obtain ⟨xs, rfl⟩ := hx
  obtain ⟨zs, rfl⟩ := hz
  induction front generalizing ys with
  | nil => exact List.nil_prefix
  | cons c front ih =>
      cases ys with
      | nil => cases hxy
      | cons y ys =>
          rw [List.cons_append, List.compare_cons_cons, Ordering.isLE_then_iff_and] at hxy hyz
          -- The next component lies between two that are equal.
          have hnext : c = y :=
            Std.LawfulEqOrd.eq_of_compare (Std.OrientedCmp.isLE_antisymm hxy.1 hyz.1)
          subst hnext
          have hself : compare c c ≠ .lt := by
            rw [Std.ReflOrd.compare_self]
            decide
          exact List.cons_prefix_cons.2 ⟨rfl, ih (hxy.2.resolve_left hself)
            (hyz.2.resolve_left hself)⟩

end

/-! ### Sorted lists -/

/-- A list is split in two where a property ends that a member has when a later one has it. -/
theorem exists_split {α : Type} {p : α → Prop} {xs : List α}
    (h : xs.Pairwise fun x y => p y → p x) :
    ∃ front back, xs = front ++ back ∧ (∀ x ∈ front, p x) ∧ ∀ x ∈ back, ¬ p x := by
  induction xs with
  | nil => exact ⟨[], [], rfl, by simp, by simp⟩
  | cons x xs ih =>
      obtain ⟨hhead, htail⟩ := List.pairwise_cons.1 h
      by_cases hx : p x
      · obtain ⟨front, back, rfl, hfront, hback⟩ := ih htail
        exact ⟨x :: front, back, rfl, List.forall_mem_cons.2 ⟨hx, hfront⟩, hback⟩
      · refine ⟨[], x :: xs, rfl, by simp, List.forall_mem_cons.2 ⟨hx, ?_⟩⟩
        exact fun y hy hpy => hx (hhead y hy hpy)

/-- The members of the root's subtree stand together in the list: all the root's copies, and
directly behind them everything else that extends it. -/
def Together {α : Type} (prefixOf : α → α → Bool) (root : α) (xs : List α) : Prop :=
  ∃ before copies descendants after,
    xs = before ++ copies ++ descendants ++ after ∧
    (∀ x ∈ copies, x = root) ∧
    (∀ x ∈ descendants, prefixOf root x = true ∧ x ≠ root) ∧
    ∀ x ∈ before ++ after, prefixOf root x = false

/-! ### Paths -/

section
variable {α β : Type} [Ord α] [Ord β]

/-- The values of `α` are paths: their components tell them apart and are what is compared, and to
extend a path is to add a component at its end. -/
structure ArePaths (components : α → List β) (extend : α → β → α) (prefixOf : α → α → Bool) :
    Prop where
  injective : Function.Injective components
  compare_eq : ∀ a b, compare a b = compare (components a) (components b)
  prefixOf_iff : ∀ a b, prefixOf a b = true ↔ components a <+: components b
  components_extend : ∀ a c, components (extend a c) = components a ++ [c]

/-- An order of paths, and how it follows the tree of their extensions. -/
structure OrdersTree (components : α → List β) (before : β → β → Prop) (extend : α → β → α)
    (prefixOf : α → α → Bool) : Prop where
  eq_iff : ∀ a b : α, compare a b = .eq ↔ a = b
  swap : ∀ a b : α, compare b a = (compare a b).swap
  isLE_trans : ∀ a b c : α, (compare a b).isLE → (compare b c).isLE → (compare a c).isLE
  /-- The first difference decides. -/
  lt_iff : ∀ a b, compare a b = .lt ↔ List.Lex before (components a) (components b)
  /-- What a path is a prefix of arises from it by extensions. -/
  prefixOf_iff : ∀ a b, prefixOf a b = true ↔
    Relation.ReflTransGen (fun parent child => ∃ c, child = extend parent c) a b
  isLE_of_prefixOf : ∀ a b, prefixOf a b = true → (compare a b).isLE
  lt_of_prefixOf : ∀ a b, prefixOf a b = true → a ≠ b → compare a b = .lt
  prefixOf_of_between : ∀ a x y z, prefixOf a x = true → prefixOf a z = true →
    (compare x y).isLE → (compare y z).isLE → prefixOf a y = true
  together : ∀ root xs, xs.Pairwise (fun x y => (compare x y).isLE) → Together prefixOf root xs

namespace ArePaths

variable {components : α → List β} {before : β → β → Prop} {extend : α → β → α}
  {prefixOf : α → α → Bool}

/-- Every path that has the components of another in front arises from that one. -/
theorem exists_extension (h : ArePaths components extend prefixOf) (a : α) (rest : List β) :
    ∃ b, Relation.ReflTransGen (fun parent child => ∃ c, child = extend parent c) a b ∧
      components b = components a ++ rest := by
  induction rest generalizing a with
  | nil => exact ⟨a, .refl, (List.append_nil _).symm⟩
  | cons c rest ih =>
      obtain ⟨b, hreach, hcomponents⟩ := ih (extend a c)
      refine ⟨b, .head ⟨c, rfl⟩ hreach, ?_⟩
      rw [hcomponents, h.components_extend, List.append_assoc]
      rfl

/-- A path extends another when it comes from it by extensions. -/
theorem prefixOf_iff_reflTransGen (h : ArePaths components extend prefixOf) (a b : α) :
    prefixOf a b = true ↔
      Relation.ReflTransGen (fun parent child => ∃ c, child = extend parent c) a b := by
  rw [h.prefixOf_iff]
  constructor
  · rintro ⟨rest, hrest⟩
    obtain ⟨b', hreach, hcomponents⟩ := h.exists_extension a rest
    have hsame : b' = b := h.injective (hcomponents.trans hrest)
    exact hsame ▸ hreach
  · intro hreach
    induction hreach with
    | refl => exact List.prefix_rfl
    | tail _ hstep ih =>
        obtain ⟨c, rfl⟩ := hstep
        rw [h.components_extend]
        exact ih.trans (List.prefix_append _ _)

/-- Comparing paths is transitive. -/
theorem transOrd [Std.TransOrd β] (h : ArePaths components extend prefixOf) : Std.TransOrd α where
  eq_swap {a b} := by
    rw [h.compare_eq, h.compare_eq]
    exact Std.OrientedOrd.eq_swap
  isLE_trans {a b c} hab hbc := by
    rw [h.compare_eq] at *
    exact Std.TransOrd.isLE_trans hab hbc

/-- Paths that compare as equal are equal. -/
theorem lawfulEqOrd [Std.LawfulEqOrd β] (h : ArePaths components extend prefixOf) :
    Std.LawfulEqOrd α where
  compare_self {a} := by
    rw [h.compare_eq]
    exact Std.ReflOrd.compare_self
  eq_of_compare {a b} hab := by
    rw [h.compare_eq] at hab
    exact h.injective (Std.LawfulEqOrd.eq_of_compare hab)

/-- A path comes before those that extend it. -/
theorem lt_of_prefixOf [Std.ReflOrd β] (h : ArePaths components extend prefixOf) {a b : α}
    (hextends : prefixOf a b = true) (hne : a ≠ b) : compare a b = .lt := by
  rw [h.compare_eq]
  exact compare_eq_lt_of_prefix ((h.prefixOf_iff a b).1 hextends) (h.injective.ne hne)

/-- A path comes no later than those that extend it. -/
theorem isLE_of_prefixOf [Std.LawfulEqOrd β] (h : ArePaths components extend prefixOf) {a b : α}
    (hextends : prefixOf a b = true) : (compare a b).isLE := by
  by_cases heq : a = b
  · have := h.lawfulEqOrd
    rw [heq, Std.ReflOrd.compare_self]
    rfl
  · rw [h.lt_of_prefixOf hextends heq]
    rfl

/-- What stands between two extensions of a path extends it too. -/
theorem prefixOf_of_between [Std.OrientedOrd β] [Std.LawfulEqOrd β]
    (h : ArePaths components extend prefixOf) {a x y z : α}
    (hx : prefixOf a x = true) (hz : prefixOf a z = true) (hxy : (compare x y).isLE)
    (hyz : (compare y z).isLE) : prefixOf a y = true := by
  rw [h.prefixOf_iff] at *
  rw [h.compare_eq] at hxy hyz
  exact prefix_of_between hx hz hxy hyz

/-- A sorted list has first what is less than the root, then the root, then what extends it, and at
last what is beyond its subtree. -/
theorem together [Std.TransOrd β] [Std.LawfulEqOrd β] (h : ArePaths components extend prefixOf)
    {root : α} {xs : List α} (hsorted : xs.Pairwise fun x y => (compare x y).isLE) :
    Together prefixOf root xs := by
  have := h.transOrd
  have := h.lawfulEqOrd
  -- Three cuts of the sorted list: before the root, at the root, and where its descendants end.
  obtain ⟨before, rest, rfl, hbefore, hrest⟩ := exists_split (p := fun x => compare x root = .lt)
    (hsorted.imp fun hxy hlt => Std.TransCmp.lt_of_isLE_of_lt hxy hlt)
  have hsortedRest := (List.pairwise_append.1 hsorted).2.1
  obtain ⟨copies, rest, rfl, hcopies, hbeyond⟩ := exists_split (p := fun x => (compare x root).isLE)
    (hsortedRest.imp fun hxy hle => Std.TransOrd.isLE_trans hxy hle)
  have hsortedBeyond := (List.pairwise_append.1 hsortedRest).2.1
  have hself : prefixOf root root = true := (h.prefixOf_iff root root).2 List.prefix_rfl
  have hgreater : ∀ x ∈ rest, (compare root x).isLE := by
    intro x hx
    rw [Std.OrientedCmp.lt_of_not_isLE (hbeyond x hx)]
    rfl
  obtain ⟨descendants, after, rfl, hdescendants, hafter⟩ :=
    exists_split (p := fun x => prefixOf root x = true) (hsortedBeyond.imp_of_mem
      fun hx _ hxy hy => h.prefixOf_of_between hself hy (hgreater _ hx) hxy)
  refine ⟨before, copies, descendants, after, by simp, ?_, ?_, ?_⟩
  · intro x hx
    have hnotless := hrest x (List.mem_append_left _ hx)
    have hequal := (Ordering.isLE_iff_eq_lt_or_eq_eq.1 (hcopies x hx)).resolve_left hnotless
    exact Std.LawfulEqOrd.eq_of_compare hequal
  · intro x hx
    refine ⟨hdescendants x hx, ?_⟩
    rintro rfl
    exact hbeyond x (List.mem_append_left _ hx) Std.ReflOrd.isLE_rfl
  · intro x hx
    rw [Bool.eq_false_iff]
    rcases List.mem_append.1 hx with hx | hx
    · intro hextends
      exact Std.OrientedCmp.not_isLE_of_lt (hbefore x hx) (h.isLE_of_prefixOf hextends)
    · exact hafter x hx

/-- The order of paths arranges them as a tree. -/
theorem ordersTree [Std.TransOrd β] [Std.LawfulEqOrd β] (h : ArePaths components extend prefixOf)
    (hbefore : ∀ x y, compare x y = .lt ↔ before x y) :
    OrdersTree components before extend prefixOf where
  eq_iff _ _ := h.lawfulEqOrd.compare_eq_iff_eq
  swap _ _ := h.transOrd.eq_swap
  isLE_trans _ _ _ := h.transOrd.isLE_trans
  lt_iff a b := by
    rw [h.compare_eq]
    exact compare_eq_lt_iff_lex hbefore
  prefixOf_iff := h.prefixOf_iff_reflTransGen
  isLE_of_prefixOf _ _ := h.isLE_of_prefixOf
  lt_of_prefixOf _ _ := h.lt_of_prefixOf
  prefixOf_of_between _ _ _ _ := h.prefixOf_of_between
  together _ _ := h.together

end ArePaths

end

end CcnxPacket
