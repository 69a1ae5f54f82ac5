import SearchSql.Predicate.Basic

/-!
# Traversal

The nodes of a predicate in tree order, a node before its children. The list is made with an
agenda of the predicates still to be visited, so no depth of nesting is too much for it. Main
statement: it is the list that the recursion on the tree defines (`walk_eq_preorderAll`).
-/

namespace SearchSql.Predicate

variable {α : Type}

/-- The nodes of the predicates on the agenda, in tree order. -/
def walk : List (Predicate α) → List (Predicate α)
  | [] => []
  | p :: agenda => p :: walk (p.children ++ agenda)
termination_by agenda => sizeAll agenda
decreasing_by
  rw [sizeAll_append, sizeAll, size_eq]
  omega

/-- All nodes in tree order. -/
def nodes (p : Predicate α) : List (Predicate α) := walk [p]

/-- The fields that the leaves look at, in tree order. -/
def fields (p : Predicate α) : List String := p.nodes.filterMap field?

mutual

/-- The node itself, then the nodes of its children from left to right. -/
def preorder : Predicate α → List (Predicate α)
  | .boolean kind first rest => .boolean kind first rest :: (preorder first ++ preorderAll rest)
  | .boost query factor => .boost query factor :: preorder query
  | p => [p]

def preorderAll : List (Predicate α) → List (Predicate α)
  | [] => []
  | p :: ps => preorder p ++ preorderAll ps

end

theorem preorder_eq (p : Predicate α) : preorder p = p :: preorderAll p.children := by
  cases p <;> simp [preorder, preorderAll, children]

theorem preorderAll_append (ps qs : List (Predicate α)) :
    preorderAll (ps ++ qs) = preorderAll ps ++ preorderAll qs := by
  induction ps with
  | nil => simp [preorderAll]
  | cons p ps ih => simp [preorderAll, ih]

theorem walk_eq_preorderAll (agenda : List (Predicate α)) : walk agenda = preorderAll agenda := by
  fun_induction walk agenda with
  | case1 => rfl
  | case2 p agenda ih => rw [ih, preorderAll_append, preorderAll, preorder_eq, List.cons_append]

theorem nodes_eq_preorder (p : Predicate α) : p.nodes = preorder p := by
  simp [nodes, walk_eq_preorderAll, preorderAll]

end SearchSql.Predicate
