import CcnxPacket.Name
import CcnxPacket.Proofs.Order.Path
import CcnxPacket.Proofs.Registry.History

/-!
# Subtrees of identifiers and of names

Type identifiers and names are paths, of numbers and of segments. Segments are ordered by their
kinds and then by their octets. So both orders are total, follow the trees that `Tid.child` and
`Name.append` grow, and keep every subtree together; in the list of a registry's identifiers, too.
-/

namespace CcnxPacket

/-! ### Type identifiers -/

namespace Tid

/-- Identifiers are paths of components. -/
theorem arePaths : ArePaths components child isPrefixOf where
  injective a b h := by
    cases a
    cases b
    rw [Tid.mk.injEq]
    exact h
  compare_eq _ _ := rfl
  prefixOf_iff _ _ := List.isPrefixOf_iff_prefix
  components_extend _ _ := rfl

/-- Identifiers are ordered as a tree. -/
theorem ordersTree : OrdersTree components (· < ·) child isPrefixOf :=
  arePaths.ordersTree fun _ _ => Std.compare_eq_lt

/-- The parent of an identifier is the one that it is a child of. -/
theorem parent?_eq_some_iff {tid parent : Tid} :
    tid.parent? = some parent ↔ ∃ c, tid = parent.child c := by
  rw [parent?, ofComponents?]
  constructor
  · intro h
    split at h
    · cases h
    · cases h
      refine ⟨tid.components.getLast tid.nonempty, arePaths.injective ?_⟩
      exact (List.dropLast_concat_getLast tid.nonempty).symm
  · rintro ⟨c, rfl⟩
    have hcomponents : (parent.child c).components.dropLast = parent.components :=
      List.dropLast_concat
    have hsome : (parent.child c).components.dropLast ≠ [] := hcomponents ▸ parent.nonempty
    rw [dif_neg hsome, Option.some.injEq]
    exact arePaths.injective hcomponents

/-- A prefix of an identifier is the identifier or one of its parents. -/
theorem isPrefixOf_iff_parents (a b : Tid) :
    a.isPrefixOf b = true ↔
      Relation.ReflTransGen (fun tid parent => tid.parent? = some parent) b a := by
  simp only [parent?_eq_some_iff]
  rw [← Relation.reflTransGen_swap]
  exact arePaths.prefixOf_iff_reflTransGen a b

end Tid

/-! ### Names -/

/-- Different kinds of segments have different ranks. -/
theorem SegmentKind.rank_injective : Function.Injective rank := by
  intro kind other h
  cases kind <;> cases other
  case app.app n m => rw [UInt8.toNat.inj (Nat.add_left_cancel h)]
  all_goals simp [rank] at h ⊢
  all_goals omega

namespace Segment

/-- Segments are ordered by their kinds, and those of a kind by their octets. -/
def Before (s t : Segment) : Prop :=
  s.kind.rank < t.kind.rank ∨ s.kind = t.kind ∧ s.value < t.value

instance : Std.TransOrd Segment :=
  inferInstanceAs (Std.TransCmp
    (compareLex (compareOn fun s : Segment => s.kind.rank) (compareOn Segment.value)))

instance : Std.LawfulEqOrd Segment where
  eq_of_compare {s t} h := by
    obtain ⟨hrank, hvalue⟩ := Ordering.then_eq_eq.1 h
    cases s
    cases t
    rw [Segment.mk.injEq]
    exact ⟨SegmentKind.rank_injective (Std.LawfulEqOrd.eq_of_compare hrank),
      Std.LawfulEqOrd.eq_of_compare hvalue⟩

/-- Comparing segments finds the one that stands before the other. -/
theorem compare_eq_lt_iff (s t : Segment) : compare s t = .lt ↔ s.Before t := by
  have hvalue : compare s.value t.value = .lt ↔ s.value < t.value :=
    compare_eq_lt_iff_lex fun _ _ => Std.compare_eq_lt
  rw [Before, ← hvalue, ← SegmentKind.rank_injective.eq_iff]
  exact Ordering.then_eq_lt.trans
    (or_congr Std.compare_eq_lt (and_congr_left' Std.LawfulEqOrd.compare_eq_iff_eq))

end Segment

namespace Name

/-- Names are paths of segments. -/
theorem arePaths : ArePaths segments append isPrefixOf where
  injective a b h := by
    cases a
    cases b
    rw [Name.mk.injEq]
    exact h
  compare_eq _ _ := rfl
  prefixOf_iff _ _ := List.isPrefixOf_iff_prefix
  components_extend _ _ := rfl

/-- Names are ordered as a tree. -/
theorem ordersTree : OrdersTree segments Segment.Before append isPrefixOf :=
  arePaths.ordersTree Segment.compare_eq_lt_iff

end Name

/-! ### Both orders -/

/-- Identifiers and names are totally ordered, the first difference deciding, and their orders
follow the trees of children: prefixes come first, and what lies between two members of a subtree is
one itself. Sorted lists of them hold every subtree in one piece, directly behind its root, and so
does the list of any registry: it has the identifiers that are registered, no others, in order. -/
theorem subtrees_stand_together :
    OrdersTree Tid.components (· < ·) Tid.child Tid.isPrefixOf ∧
    OrdersTree Name.segments Segment.Before Name.append Name.isPrefixOf ∧
    (∀ a b : Tid, a.isPrefixOf b = true ↔
      Relation.ReflTransGen (fun tid parent => tid.parent? = some parent) b a) ∧
    ∀ (F : Type) (registry : Registry F),
      (∀ tid, tid ∈ registry.tids ↔ registry.contains tid = true) ∧
      registry.tids.length = registry.size ∧
      registry.tids.Pairwise (fun a b => (compare a b).isLE) ∧
      ∀ root, Together Tid.isPrefixOf root registry.tids := by
  refine ⟨Tid.ordersTree, Name.ordersTree, Tid.isPrefixOf_iff_parents, fun F registry => ?_⟩
  have hsorted := Tid.pairwise_le_sort (registry.entries.map Prod.fst)
  exact ⟨fun tid => Registry.mem_tids_iff, Registry.length_tids registry, hsorted,
    fun root => Tid.arePaths.together hsorted⟩

/-- The fields of a Content Object, a name with one that extends it, and a registry. -/
theorem subtrees_of_contentObject :
    Tid.contentObject.isPrefixOf (Tid.contentObject.element TlvType.payloadType) = true ∧
      compare (⟨[⟨.name, [97]⟩]⟩ : Name) ⟨[⟨.name, [97]⟩, ⟨.chunk, []⟩]⟩ = .lt ∧
      Tid.validationPayload ∈ Registry.shared.tids ∧
      Together Tid.isPrefixOf Tid.contentObject Registry.shared.tids := by
  obtain ⟨htids, hnames, -, hregistries⟩ := subtrees_stand_together
  obtain ⟨hmem, -, -, htogether⟩ := hregistries Format .shared
  refine ⟨?_, ?_, (hmem _).2 (by decide), htogether _⟩
  · exact htids.prefixOf_of_between _ (Tid.contentObject.element TlvType.payload) _
      (Tid.contentObject.element TlvType.expiry) (by decide) (by decide) (by decide) (by decide)
  · exact hnames.lt_of_prefixOf _ _ (by decide) (by decide)

end CcnxPacket
