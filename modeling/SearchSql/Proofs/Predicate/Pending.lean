import SearchSql.Predicate.Pending
import SearchSql.Proofs.Predicate.Places

/-!
# Visits

What is still to come of the visits stands on the stack: the nodes of the predicates on it, the last
one first. A visit takes the first of these nodes off and leaves the others as they are, in their
order, so from a single predicate its nodes are visited in tree order (`visits_in_tree_order`).
-/

namespace SearchSql

namespace Predicate

namespace Pending

variable {α : Type} {stack rest : Pending α} {p : Predicate α}

/-- The nodes that are still to come. -/
def upcoming (stack : Pending α) : List (Predicate α) := preorderAll stack.reverse

@[simp] theorem upcoming_nil : upcoming ([] : Pending α) = [] := rfl

theorem upcoming_singleton (p : Predicate α) : upcoming [p] = preorder p := by
  rw [upcoming, List.reverse_singleton, preorderAll, preorderAll, List.append_nil]

/-- One visit. The children of the node come before everything that was pending already. -/
theorem upcoming_of_next (h : stack.next? = some (p, rest)) :
    stack.upcoming = p :: rest.upcoming := by
  obtain ⟨below, rfl, rfl⟩ := next?_eq_some.mp h
  rw [upcoming, upcoming, List.reverse_append, List.reverse_append, List.reverse_reverse,
    List.reverse_singleton, List.singleton_append, preorderAll, preorderAll_append, preorder_eq,
    List.cons_append]

/-- All visits, until nothing is pending. -/
theorem visit_eq_upcoming (stack : Pending α) : stack.visit = stack.upcoming := by
  fun_induction visit stack with
  | case1 stack none => rw [next?_eq_none.mp none, upcoming_nil]
  | case2 stack p rest next ih => rw [ih, upcoming_of_next next]

theorem length_upcoming (stack : Pending α) : stack.upcoming.length = sizeAll stack := by
  fun_induction visit stack with
  | case1 stack none => rw [next?_eq_none.mp none]; rfl
  | case2 stack p rest next ih =>
    rw [upcoming_of_next next, List.length_cons, ih, sizeAll_of_next next]

theorem upcoming_eq_nil : stack.upcoming = [] ↔ stack = [] := by
  constructor
  · intro none
    cases next : stack.next? with
    | none => exact next?_eq_none.mp next
    | some found =>
      rw [upcoming_of_next next] at none
      cases none
  · rintro rfl
    exact upcoming_nil

/-! ## So many visits -/

theorem visits?_succ_of_next (h : stack.next? = some (p, rest)) (k : ℕ) :
    visits? (k + 1) stack = (visits? k rest).map fun (visited, rest) => (p :: visited, rest) := by
  simp only [visits?, h, Option.bind_eq_bind, Option.bind_some]
  cases visits? k rest <;> rfl

theorem visits?_succ_nil (k : ℕ) : visits? (k + 1) ([] : Pending α) = none := rfl

/-- So many visits take off the first of the nodes that are still to come. -/
theorem exists_visits?_eq_some {k : ℕ} (h : k ≤ stack.upcoming.length) :
    ∃ rest, visits? k stack = some (stack.upcoming.take k, rest) ∧
      rest.upcoming = stack.upcoming.drop k := by
  induction k generalizing stack with
  | zero => exact ⟨stack, rfl, rfl⟩
  | succ k ih =>
    cases next : stack.next? with
    | none =>
      rw [next?_eq_none.mp next] at h
      cases h
    | some found =>
      obtain ⟨p, pending⟩ := found
      rw [upcoming_of_next next] at h ⊢
      obtain ⟨rest, visits, left⟩ := ih (Nat.le_of_succ_le_succ h)
      exact ⟨rest, by rw [visits?_succ_of_next next, visits]; rfl, left⟩

theorem visits?_eq_none {k : ℕ} (h : stack.upcoming.length < k) : visits? k stack = none := by
  induction k generalizing stack with
  | zero => cases h
  | succ k ih =>
    cases next : stack.next? with
    | none =>
      rw [next?_eq_none.mp next]
      exact visits?_succ_nil k
    | some found =>
      obtain ⟨p, pending⟩ := found
      rw [upcoming_of_next next, List.length_cons, Nat.succ_lt_succ_iff] at h
      rw [visits?_succ_of_next next, ih h, Option.map_none]

/-! ## From a single predicate -/

/-- From a single predicate, as many visits can be made as it has nodes. The nodes that are visited
are those of the recursion on the tree, at each place once and in the order of the places, and the
fields are those of the nodes that look at one. -/
theorem visits_in_tree_order (p : Predicate α) :
    visit [p] = preorder p ∧
    (∀ k ≤ p.size, ∃ rest, visits? k [p] = some ((preorder p).take k, rest) ∧
      visit rest = (preorder p).drop k ∧ (rest = [] ↔ k = p.size)) ∧
    (∀ k > p.size, visits? k [p] = none) ∧
    (∃ places : List (List ℕ), places.Pairwise (· < ·) ∧
      (∀ place, place ∈ places ↔ ∃ q, p.at? place = some q) ∧
      (visit [p]).map some = places.map p.at?) ∧
    p.fields = (visit [p]).filterMap field? ∧
    ∀ (q : Predicate α) f, q.field? = some f ↔
      (∃ value, q = .term f value) ∨ (∃ value options, q = .fuzzy f value options) ∨
      (∃ phrases slop, q = .phrase f phrases slop) ∨ (∃ range, q = .range f range) ∨
      q = .present f := by
  have all : visit [p] = preorder p := by rw [visit_eq_upcoming, upcoming_singleton]
  have count : (upcoming [p]).length = p.size := by
    rw [length_upcoming, sizeAll, sizeAll, Nat.add_zero]
  refine ⟨all, ?_, ?_, ⟨p.places, pairwise_places p, fun _ => mem_places_iff, ?_⟩, ?_, ?_⟩
  · intro k few
    obtain ⟨rest, visits, left⟩ := exists_visits?_eq_some (count ▸ few)
    have ended : rest = [] ↔ k = p.size := by
      rw [← upcoming_eq_nil, left, List.drop_eq_nil_iff, count]
      exact ⟨le_antisymm few, fun h => h.ge⟩
    rw [upcoming_singleton] at visits left
    exact ⟨rest, visits, by rw [visit_eq_upcoming, left], ended⟩
  · intro k many
    exact visits?_eq_none (count ▸ many)
  · rw [all, map_at?_places]
  · rw [all, fields, nodes_eq_preorder]
  · intro q f
    cases q <;> simp [field?]

/-- A group and a boost one in the other, and a term that stands in two places. -/
def nestedGroups : Predicate ℕ :=
  let four : Finite64 := ⟨false, 0x4010000000000000, by decide⟩
  let stressed := boost (phrase "b" [2] none) ⟨.real four, four, rfl⟩
  boolean .must (parse "walk") [boolean .should (term "a" 1) [stressed], term "a" 1, present "c"]

theorem visits_of_nestedGroups :
    nestedGroups.fields = ["a", "b", "a", "c"] ∧
      (∃ visited rest, visits? 6 [nestedGroups] = some (visited, rest) ∧
        visited.filterMap field? = ["a", "b"] ∧ rest ≠ []) ∧
      ∃ visited, visits? 8 [nestedGroups] = some (visited, []) := by
  obtain ⟨all, few, -, -, fields, -⟩ := visits_in_tree_order nestedGroups
  obtain ⟨six, hsix, -, unfinished⟩ := few 6 (by decide)
  obtain ⟨eight, height, -, ended⟩ := few 8 (by decide)
  refine ⟨?_, ⟨_, six, hsix, rfl, fun none => absurd (unfinished.mp none) (by decide)⟩, ?_⟩
  · rw [fields, all]
    rfl
  · rw [height, ended.mpr rfl]
    exact ⟨_, rfl⟩

end Pending

end Predicate

end SearchSql
