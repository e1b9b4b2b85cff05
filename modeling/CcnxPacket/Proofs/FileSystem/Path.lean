import CcnxPacket.FileSystem
import Mathlib

/-!
# Where the directory of a path leads

A path is walked component by component, and components that are empty or a dot lead nowhere
(`route`). Taking the last component off a path that ends in a name leaves a path that leads where
the rest of the components do, whatever slashes and dots are cut off with the name.
-/

namespace CcnxPacket.Path

/-- Whether a component leads on: empty ones and dots do not. -/
def counts (component : List Char) : Bool := !(component.isEmpty || component == ['.'])

/-- The components of a path that lead on. -/
def route (path : List Char) : List (List Char) := (path.splitOn '/').filter counts

/-- Only empty components and single dots do not count. -/
theorem counts_eq_false {component : List Char} :
    counts component = false ↔ component = [] ∨ component = ['.'] := by
  simp [counts]
  tauto

/-- A route goes through what is before a slash and then through what is behind it. -/
theorem route_append_slash (front back : List Char) :
    route (front ++ '/' :: back) = route front ++ route back := by
  rw [route, List.splitOn_append_cons_self, List.filter_append]
  rfl

theorem route_slash (path : List Char) : route ('/' :: path) = route path :=
  route_append_slash [] path

section
variable {name : List Char}

/-- A name that counts is its own route. -/
theorem route_of_slash_not_mem (h : '/' ∉ name) (hcounts : counts name = true) :
    route name = [name] := by
  rw [route, List.splitOn_eq_singleton h, List.filter_cons_of_pos hcounts, List.filter_nil]

theorem bne_slash_of_mem (h : '/' ∉ name) : ∀ c ∈ name, (c != '/') = true :=
  fun _ hc => bne_iff_ne.2 fun heq => h (heq ▸ hc)

theorem takeWhile_of_slash_not_mem (h : '/' ∉ name) : name.takeWhile (· != '/') = name :=
  List.takeWhile_eq_self_iff.2 (bne_slash_of_mem h)

theorem takeWhile_append_slash (h : '/' ∉ name) (rest : List Char) :
    (name ++ '/' :: rest).takeWhile (· != '/') = name := by
  rw [List.takeWhile_append, takeWhile_of_slash_not_mem h]
  simp

end

/-! ### Trimming -/

/-- What does not count adds nothing to a route. -/
theorem route_reverse_of_not_counts {component : List Char} (h : counts component = false) :
    route component.reverse = [] := by
  rcases counts_eq_false.1 h with rfl | rfl <;> rfl

/-- What is trimmed off leads nowhere. -/
theorem trimReversed_spec (fuel : Nat) (path : List Char) :
    route (trimReversed fuel path).reverse = route path.reverse ∧
      (trimReversed fuel path).reverse <+: path.reverse := by
  fun_induction trimReversed fuel path with
  | case1 path => exact ⟨rfl, List.prefix_rfl⟩
  | case2 => exact ⟨rfl, List.prefix_rfl⟩
  | case3 fuel path hne component h ih =>
      -- The text stands reversed: the component cut off here is the last one of the path.
      have hnowhere : route component.reverse = [] := by
        apply route_reverse_of_not_counts
        rw [counts, h]
        rfl
      by_cases hslash : '/' ∈ path
      · obtain ⟨first, rest, rfl, hfirst⟩ := List.eq_append_cons_of_mem hslash
        have hcomponent : component = first := takeWhile_append_slash hfirst rest
        rw [hcomponent] at hnowhere
        rw [hcomponent, List.drop_left, List.drop_one, List.tail_cons] at ih ⊢
        rw [List.reverse_append, List.reverse_cons, List.append_assoc, List.singleton_append,
          route_append_slash, hnowhere, List.append_nil]
        exact ⟨ih.1, ih.2.trans (List.prefix_append _ _)⟩
      · have hcomponent : component = path := takeWhile_of_slash_not_mem hslash
        rw [hcomponent] at hnowhere
        rw [hcomponent, List.drop_length, List.drop_nil] at ih ⊢
        rw [hnowhere]
        exact ⟨ih.1, ih.2.trans List.nil_prefix⟩
  | case4 fuel path hne component h => exact ⟨rfl, List.prefix_rfl⟩

/-- Trimming keeps the route. -/
theorem route_trimmed (path : List Char) : route (trimmed path) = route path := by
  have h := (trimReversed_spec (path.length + 1) path.reverse).1
  rwa [List.reverse_reverse] at h

/-- Trimming drops characters at the end only. -/
theorem prefix_trimmed (path : List Char) : trimmed path <+: path := by
  have h := (trimReversed_spec (path.length + 1) path.reverse).2
  rwa [List.reverse_reverse] at h

/-- A dot in front of what is left after trimming leads nowhere either. -/
theorem route_dot_trimmed (path : List Char) :
    route ('.' :: trimmed ('/' :: path)) = route ('.' :: '/' :: path) := by
  have hdot (path : List Char) : route ('.' :: '/' :: path) = route path :=
    route_append_slash ['.'] path
  have hroute := route_trimmed ('/' :: path)
  rcases List.prefix_cons_iff.1 (prefix_trimmed ('/' :: path)) with h | ⟨rest, h, -⟩
  · rw [h] at hroute ⊢
    rw [hdot, ← route_slash path, ← hroute]
    rfl
  · rw [h, route_slash, route_slash] at hroute
    rw [h, hdot, hdot, hroute]

/-- A path is its first component, alone or with a slash and more behind it. -/
theorem firstComponent (path : List Char) :
    ∃ first, '/' ∉ first ∧ (path = first ∨ ∃ more, path = first ++ '/' :: more) := by
  by_cases h : '/' ∈ path
  · obtain ⟨first, more, hpath, hfirst⟩ := List.eq_append_cons_of_mem h
    exact ⟨first, hfirst, .inr ⟨more, hpath⟩⟩
  · exact ⟨path, h, .inl rfl⟩

/-- A path is its last component, alone or with a slash and more in front of it. -/
theorem lastComponent (path : List Char) :
    ∃ name, '/' ∉ name ∧ (path = name ∨ ∃ front, path = front ++ '/' :: name) := by
  obtain ⟨name, hname, hpath⟩ := firstComponent path.reverse
  refine ⟨name.reverse, by simpa using hname, ?_⟩
  rcases hpath with hpath | ⟨more, hpath⟩
  · exact .inl (List.reverse_eq_iff.1 hpath)
  · refine .inr ⟨more.reverse, ?_⟩
    rw [List.reverse_eq_iff.1 hpath]
    simp

section
variable {name : List Char} (hslash : '/' ∉ name)
include hslash

theorem takeWhile_reverse_append (front : List Char) :
    (front ++ '/' :: name).reverse.takeWhile (· != '/') = name.reverse := by
  rw [List.reverse_append, List.reverse_cons, List.append_assoc, List.singleton_append,
    takeWhile_append_slash (by simpa using hslash)]

theorem takeWhile_reverse : name.reverse.takeWhile (· != '/') = name.reverse :=
  takeWhile_of_slash_not_mem (by simpa using hslash)

/-- Without the name at its end, a path is what is in front of that. -/
theorem dropComponent_append_name (front : List Char) :
    dropComponent (front ++ '/' :: name) = front := by
  have hparts := List.takeWhile_append_dropWhile (p := (· != '/'))
    (l := (front ++ '/' :: name).reverse)
  rw [takeWhile_reverse_append hslash, List.reverse_append, List.reverse_cons, List.append_assoc,
    List.append_cancel_left_eq] at hparts
  rw [dropComponent, List.reverse_append, List.reverse_cons, List.append_assoc, hparts]
  simp

/-- Of a name alone nothing is left without it. -/
theorem dropComponent_name : dropComponent name = [] := by
  have hall : ∀ c ∈ name.reverse, (c != '/') = true := bne_slash_of_mem (by simpa using hslash)
  rw [dropComponent, List.dropWhile_eq_nil_iff.2 hall]
  rfl

end

/-! ### Taking off a name -/

/-- Nothing is trimmed off a text that ends in a component that counts. -/
theorem trimmed_of_takeWhile {path name : List Char} (hcounts : counts name = true)
    (hpath : path.reverse.takeWhile (· != '/') = name.reverse) : trimmed path = path := by
  have hstop : (name.reverse.isEmpty || name.reverse == ['.']) = false := by
    rw [counts, Bool.not_eq_true', Bool.or_eq_false_iff, List.isEmpty_eq_false_iff,
      beq_eq_false_iff_ne] at hcounts
    have hdot : name.reverse ≠ ['.'] := fun h => hcounts.2 (List.reverse_injective h)
    simp [hcounts.1, hdot]
  rw [trimmed]
  cases hrev : path.reverse with
  | nil =>
      obtain rfl : path = [] := List.reverse_eq_nil_iff.1 hrev
      rfl
  | cons c rest =>
      rw [hrev] at hpath
      simp only [trimReversed, hpath, hstop, Bool.false_eq_true, if_false]
      rw [← hrev, List.reverse_reverse]

section
variable {name : List Char} (hslash : '/' ∉ name) (hcounts : counts name = true)
include hslash hcounts

/-- Nothing is trimmed behind a name. -/
theorem trimmed_append_name (front : List Char) :
    trimmed (front ++ '/' :: name) = front ++ '/' :: name :=
  trimmed_of_takeWhile hcounts (takeWhile_reverse_append hslash front)

theorem trimmed_name : trimmed name = name :=
  trimmed_of_takeWhile hcounts (takeWhile_reverse hslash)

theorem anchor_name : anchor name = [] := by
  fun_cases anchor name with
  | case1 => simp at hslash
  | case2 => simp [counts] at hcounts
  | case3 => simp at hslash
  | case4 => rfl

theorem anchor_name_append (rest : List Char) : anchor (name ++ '/' :: rest) = [] := by
  generalize hpath : name ++ '/' :: rest = path
  fun_cases anchor path with
  | case1 back =>
      rcases List.append_eq_cons_iff.1 hpath with ⟨rfl, -⟩ | ⟨more, rfl, -⟩
      · cases hcounts
      · simp at hslash
  | case2 =>
      rcases List.append_eq_cons_iff.1 hpath with ⟨rfl, -⟩ | ⟨more, rfl, hmore⟩
      · cases hcounts
      · simp at hmore
  | case3 back =>
      rcases List.append_eq_cons_iff.1 hpath with ⟨rfl, -⟩ | ⟨more, rfl, hmore⟩
      · cases hcounts
      · rcases List.append_eq_cons_iff.1 hmore.symm with ⟨rfl, -⟩ | ⟨more, rfl, -⟩
        · cases hcounts
        · simp at hslash
  | case4 => rfl

end

/-- The parent of a path whose part after the anchor loses nothing to trimming. -/
theorem parentChars?_anchored (start body : List Char) (hanchor : anchor (start ++ body) = start)
    (htrimmed : trimmed body = body) (hbody : body ≠ []) :
    parentChars? (start ++ body) = some (start ++ trimmed (dropComponent body)) := by
  simp [parentChars?, hanchor, htrimmed, hbody]

theorem ne_nil_of_counts {name : List Char} (h : counts name = true) : name ≠ [] := by
  rintro rfl
  cases h

section
variable {name : List Char} (hslash : '/' ∉ name) (hcounts : counts name = true)
include hslash hcounts

/-- The parent of a name alone is the empty path. -/
theorem parentChars?_name : parentChars? name = some [] := by
  have h := parentChars?_anchored [] name (anchor_name hslash hcounts)
    (trimmed_name hslash hcounts) (ne_nil_of_counts hcounts)
  rwa [dropComponent_name hslash] at h

/-- The part after the anchor is the rest of the components in front, then the name. -/
theorem parentChars?_anchored_append (start rest : List Char)
    (hanchor : anchor (start ++ rest ++ '/' :: name) = start)
    (hne : start ++ trimmed rest ≠ [])
    (hroute : route (start ++ trimmed rest) = route (start ++ rest)) :
    ∃ parent, parentChars? (start ++ rest ++ '/' :: name) = some parent ∧ parent ≠ [] ∧
      parent <+: start ++ rest ++ '/' :: name ∧ route parent = route (start ++ rest) := by
  refine ⟨start ++ trimmed rest, ?_, hne, ?_, hroute⟩
  · rw [List.append_assoc] at hanchor ⊢
    rw [parentChars?_anchored start _ hanchor (trimmed_append_name hslash hcounts rest) (by simp),
      dropComponent_append_name hslash]
  · exact ((List.prefix_append_right_inj start).2 (prefix_trimmed rest)).trans
      (List.prefix_append _ _)

/-- The path that is left when a name is taken off leads where the components before it do. -/
theorem parentChars?_append_name (front : List Char) :
    ∃ parent, parentChars? (front ++ '/' :: name) = some parent ∧ parent ≠ [] ∧
      parent <+: front ++ '/' :: name ∧ route parent = route front := by
  -- Only a first component that does not count makes an anchor: empty for the root, or a dot.
  obtain ⟨first, hfirst, hfront⟩ := firstComponent front
  cases hfirstCounts : counts first with
  | true =>
      have hanchor : anchor (front ++ '/' :: name) = [] := by
        rcases hfront with rfl | ⟨more, rfl⟩
        · exact anchor_name_append hfirst hfirstCounts name
        · rw [List.append_assoc]
          exact anchor_name_append hfirst hfirstCounts (more ++ '/' :: name)
      have hmem : first ∈ route front := by
        rcases hfront with rfl | ⟨more, rfl⟩
        · simp [route_of_slash_not_mem hfirst hfirstCounts]
        · simp [route_append_slash, route_of_slash_not_mem hfirst hfirstCounts]
      have hne : trimmed front ≠ [] := by
        intro h
        rw [← route_trimmed, h] at hmem
        exact absurd hmem List.not_mem_nil
      exact parentChars?_anchored_append hslash hcounts [] front hanchor hne
        (route_trimmed front)
  | false =>
      rcases counts_eq_false.1 hfirstCounts with rfl | rfl <;> rcases hfront with rfl | ⟨more, rfl⟩
      · refine ⟨['/'], ?_, List.cons_ne_nil _ _, ⟨name, rfl⟩, rfl⟩
        have h := parentChars?_anchored ['/'] name rfl
          (trimmed_name hslash hcounts) (ne_nil_of_counts hcounts)
        rwa [dropComponent_name hslash] at h
      · refine parentChars?_anchored_append hslash hcounts ['/'] more rfl
          (List.cons_ne_nil _ _) ?_
        exact (route_slash _).trans ((route_trimmed more).trans (route_slash more).symm)
      · exact parentChars?_anchored_append hslash hcounts ['.'] [] rfl
          (List.cons_ne_nil _ _) rfl
      · exact parentChars?_anchored_append hslash hcounts ['.'] ('/' :: more) rfl
          (List.cons_ne_nil _ _) (route_dot_trimmed more)

end

end CcnxPacket.Path
