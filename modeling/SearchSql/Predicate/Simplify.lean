import SearchSql.Predicate.Basic

/-!
# Simplification

A `must` or `should` with one child says no more than the child and is replaced by it, at any
depth. The work is done with an agenda and a pile of finished predicates. Main statement: the
outcome is that of the recursion on the tree (`simplify_eq_collapse`).
-/

namespace SearchSql.Predicate

variable {α : Type}

/-- A node with its children replaced; a `must` or `should` of one child is that child. -/
def rebuild : Predicate α → List (Predicate α) → Predicate α
  | .boost _ factor, [query] => .boost query factor
  | .boolean .mustNot _ _, first :: rest => .boolean .mustNot first rest
  | .boolean _ _ _, [child] => child
  | .boolean kind _ _, first :: rest => .boolean kind first rest
  | p, _ => p

/-- A step of the work: a predicate to look at, or a node whose children are finished. -/
inductive Task (α : Type) where
  | visit (p : Predicate α)
  | finish (p : Predicate α)

def Task.weight : Task α → Nat
  | .visit p => 2 * p.size
  | .finish _ => 1

def agendaWeight : List (Task α) → Nat
  | [] => 0
  | t :: agenda => t.weight + agendaWeight agenda

theorem agendaWeight_append (a b : List (Task α)) :
    agendaWeight (a ++ b) = agendaWeight a + agendaWeight b := by
  induction a with
  | nil => simp [agendaWeight]
  | cons t a ih => simp only [List.cons_append, agendaWeight, ih]; omega

theorem agendaWeight_visits (ps : List (Predicate α)) :
    agendaWeight (ps.map .visit) = 2 * sizeAll ps := by
  induction ps with
  | nil => rfl
  | cons p ps ih => simp only [List.map_cons, agendaWeight, ih, Task.weight, sizeAll]; omega

/-- Works off an agenda. The finished predicates lie on a pile, the latest on top; as the last
child is visited first, the children of a node end up in order on top of it. -/
def work : List (Task α) → List (Predicate α) → List (Predicate α)
  | [], pile => pile
  | .finish p :: agenda, pile =>
    let n := p.children.length
    work agenda (rebuild p (pile.take n) :: pile.drop n)
  | .visit p :: agenda, pile =>
    if p.children.isEmpty then work agenda (p :: pile)
    else work (p.children.reverse.map .visit ++ .finish p :: agenda) pile
termination_by agenda => agendaWeight agenda
decreasing_by
  · simp only [agendaWeight, Task.weight]
    omega
  · simp only [agendaWeight, Task.weight, size_eq p]
    omega
  · rw [agendaWeight_append, agendaWeight_visits, sizeAll_reverse]
    simp only [agendaWeight, Task.weight, size_eq p]
    omega

/-- The predicate without any `must` or `should` of one child. -/
def simplify (p : Predicate α) : Predicate α := (work [.visit p] []).head?.getD p

mutual

/-- Simplifies the children, then drops the node if it is a `must` or `should` of one child. -/
def collapse : Predicate α → Predicate α
  | .boolean kind first rest =>
    rebuild (.boolean kind first rest) (collapse first :: collapseAll rest)
  | .boost query factor => .boost (collapse query) factor
  | p => p

def collapseAll : List (Predicate α) → List (Predicate α)
  | [] => []
  | p :: ps => collapse p :: collapseAll ps

end

mutual

/-- The number of `must` and `should` nodes with one child. -/
def singles : Predicate α → Nat
  | .boolean kind first rest =>
    (if kind ≠ .mustNot ∧ rest = [] then 1 else 0) + (singles first + singlesAll rest)
  | .boost query _ => singles query
  | _ => 0

def singlesAll : List (Predicate α) → Nat
  | [] => 0
  | p :: ps => singles p + singlesAll ps

end

theorem collapseAll_eq_map (ps : List (Predicate α)) : collapseAll ps = ps.map collapse := by
  induction ps with
  | nil => rfl
  | cons p ps ih => simp [collapseAll, ih]

theorem collapse_eq_rebuild (p : Predicate α) :
    collapse p = rebuild p (p.children.map collapse) := by
  cases p <;> simp [collapse, rebuild, children, collapseAll_eq_map]

theorem collapse_eq_self_of_leaf {p : Predicate α} (h : p.children = []) : collapse p = p := by
  cases p <;> simp_all [collapse, children]

/-- Visiting predicates one after the other puts their simplified forms on the pile. -/
theorem work_visits (ps : List (Predicate α)) (agenda : List (Task α)) (pile : List (Predicate α)) :
    work (ps.map .visit ++ agenda) pile = work agenda ((ps.map collapse).reverse ++ pile) := by
  suffices h : ∀ n (ps : List (Predicate α)) agenda pile, sizeAll ps ≤ n →
      work (ps.map .visit ++ agenda) pile = work agenda ((ps.map collapse).reverse ++ pile) from
    h _ ps agenda pile (Nat.le_refl _)
  intro n
  induction n with
  | zero =>
    intro ps agenda pile h
    cases ps with
    | nil => rfl
    | cons p ps => simp only [sizeAll, size_eq] at h; omega
  | succ n ih =>
    intro ps agenda pile h
    cases ps with
    | nil => rfl
    | cons p ps =>
      simp only [sizeAll, size_eq p] at h
      have rest (pile : List (Predicate α)) := ih ps agenda pile (by omega)
      rw [List.map_cons, List.cons_append, work]
      split
      · next leaf =>
        rw [rest, List.map_cons, List.reverse_cons,
          collapse_eq_self_of_leaf (List.isEmpty_iff.1 leaf), List.append_assoc]
        rfl
      · have inner := ih p.children.reverse (.finish p :: (ps.map .visit ++ agenda)) pile
          (by rw [sizeAll_reverse]; omega)
        rw [inner, List.map_reverse, List.reverse_reverse, work]
        rw [List.take_left' (by simp), List.drop_left' (by simp), ← collapse_eq_rebuild, rest,
          List.map_cons, List.reverse_cons, List.append_assoc]
        rfl

theorem simplify_eq_collapse (p : Predicate α) : simplify p = collapse p := by
  have := work_visits [p] [] []
  simp only [List.map_cons, List.map_nil, List.append_nil, List.reverse_cons, List.reverse_nil,
    List.nil_append] at this
  rw [simplify, this, work]
  rfl

end SearchSql.Predicate
