import SearchSql.Predicate.Traversal

/-!
# Pending predicates

Nodes are visited one at a time, from a stack of predicates that are still pending. The next one is
the last on the stack. Its children are put on the stack in reverse, so the first of them is next.
Main statement: each visit leaves one node less to come (`sizeAll_of_next`), so the visits come to
an end.
-/

namespace SearchSql.Predicate

variable {α : Type}

/-- The predicates that are pending. -/
abbrev Pending (α : Type) := List (Predicate α)

namespace Pending

/-- The node that is visited next, and what is pending then. -/
def next? (stack : Pending α) : Option (Predicate α × Pending α) :=
  stack.getLast?.map fun p => (p, stack.dropLast ++ p.children.reverse)

theorem next?_eq_none {stack : Pending α} : stack.next? = none ↔ stack = [] := by
  rw [next?, Option.map_eq_none_iff, List.getLast?_eq_none_iff]

theorem next?_eq_some {stack rest : Pending α} {p : Predicate α} :
    stack.next? = some (p, rest) ↔
      ∃ below, stack = below ++ [p] ∧ rest = below ++ p.children.reverse := by
  rw [next?, Option.map_eq_some_iff]
  constructor
  · rintro ⟨q, hq, h⟩
    cases h
    obtain ⟨below, rfl⟩ := List.getLast?_eq_some_iff.mp hq
    exact ⟨below, rfl, by rw [List.dropLast_concat]⟩
  · rintro ⟨below, rfl, rfl⟩
    exact ⟨p, List.getLast?_concat, by rw [List.dropLast_concat]⟩

/-- A visit takes one node off, and puts on only what was under it already. -/
theorem sizeAll_of_next {stack rest : Pending α} {p : Predicate α}
    (h : stack.next? = some (p, rest)) : sizeAll stack = sizeAll rest + 1 := by
  obtain ⟨below, rfl, rfl⟩ := next?_eq_some.mp h
  rw [sizeAll_append, sizeAll_append, sizeAll_reverse, sizeAll, sizeAll, size_eq]
  omega

/-- All nodes in the order in which they are visited. -/
def visit (stack : Pending α) : List (Predicate α) :=
  match _h : stack.next? with
  | none => []
  | some (p, rest) => p :: visit rest
termination_by sizeAll stack
decreasing_by
  rw [sizeAll_of_next _h]
  exact Nat.lt_succ_self _

/-- So many visits: the nodes that are visited, and what is pending then. There is no outcome if the
stack is empty before. -/
def visits? : Nat → Pending α → Option (List (Predicate α) × Pending α)
  | 0, stack => some ([], stack)
  | n + 1, stack => do
    let (p, rest) ← stack.next?
    let (visited, rest) ← visits? n rest
    return (p :: visited, rest)

end Pending

end SearchSql.Predicate
