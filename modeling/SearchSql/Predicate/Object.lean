import SearchSql.Predicate.Simplify
import SearchSql.Table

/-!
# Predicates as objects

A predicate as it lies in memory: each of its nodes is an object with an identity, and one object may
stand in several places. Simplification is done with a stack of the objects to look at and a table of
the finished ones by their identities. A node is made anew only if one of its children is another
object than before, so what needs no change stays the same object.
-/

namespace SearchSql

/-- A node without children is kept as a predicate. -/
inductive Object (α : Type) where
  | leaf (id : Nat) (predicate : Predicate α) (alone : predicate.children = [])
  | boolean (id : Nat) (kind : Kind) (first : Object α) (rest : List (Object α))
  | boost (id : Nat) (query : Object α) (factor : Factor)

namespace Object

variable {α : Type}

def id : Object α → Nat
  | .leaf id _ _ => id
  | .boolean id _ _ _ => id
  | .boost id _ _ => id

def children : Object α → List (Object α)
  | .leaf _ _ _ => []
  | .boolean _ _ first rest => first :: rest
  | .boost _ query _ => [query]

mutual

/-- The predicate that the object stands for. -/
def tree : Object α → Predicate α
  | .leaf _ predicate _ => predicate
  | .boolean _ kind first rest => .boolean kind (tree first) (trees rest)
  | .boost _ query factor => .boost (tree query) factor

def trees : List (Object α) → List (Predicate α)
  | [] => []
  | o :: os => tree o :: trees os

end

mutual

def size : Object α → Nat
  | .leaf _ _ _ => 1
  | .boolean _ _ first rest => 1 + (size first + sizes rest)
  | .boost _ query _ => 1 + size query

def sizes : List (Object α) → Nat
  | [] => 0
  | o :: os => size o + sizes os

end

theorem size_eq (o : Object α) : o.size = 1 + sizes o.children := by
  cases o <;> simp [size, sizes, children]

@[simp] theorem sizes_append (os os' : List (Object α)) :
    sizes (os ++ os') = sizes os + sizes os' := by
  induction os with
  | nil => simp [sizes]
  | cons o os ih => simp [sizes, ih, Nat.add_assoc]

@[simp] theorem sizes_reverse (os : List (Object α)) : sizes os.reverse = sizes os := by
  induction os with
  | nil => rfl
  | cons o os ih => simp [sizes, ih, Nat.add_comm]

/-! ## Simplification -/

/-- Two rows are the same objects, as far as both go. -/
def sameObjects (os os' : List (Object α)) : Bool :=
  (os.zip os').all fun (o, o') => o.id = o'.id

/-- A node with its children replaced: the only child of a `must` or `should`, the node itself if its
children are the same objects, or a new object, whose identity is the next one. -/
def rebuild (node : Object α) (children : List (Object α)) (next : Nat) : Object α × Nat :=
  match node, children with
  | .boost _ query factor, child :: _ =>
    if child.id = query.id then (node, next) else (.boost next child factor, next + 1)
  | .boolean _ kind first rest, child :: more =>
    if more.isEmpty && kind != .mustNot then (child, next)
    else if sameObjects (child :: more) (first :: rest) then (node, next)
    else (.boolean next kind child more, next + 1)
  | _, _ => (node, next)

/-- The finished objects by the identities of those that they are made from, and the identity that
the next new object gets. -/
structure Memory (α : Type) where
  done : Table Nat (Object α)
  next : Nat

/-- Finishes a node whose children are finished. -/
def Memory.finish (m : Memory α) (node : Object α) (children : List (Object α)) : Memory α :=
  let (object, next) := node.rebuild children m.next
  ⟨m.done.put node.id object, next⟩

/-- An object on the stack, with whether its children have been put on the stack. -/
abbrev Visit (α : Type) := Object α × Bool

def stackWeight : List (Visit α) → Nat
  | [] => 0
  | (o, expanded) :: stack => (if expanded then 1 else 2 * o.size) + stackWeight stack

theorem stackWeight_append (a b : List (Visit α)) :
    stackWeight (a ++ b) = stackWeight a + stackWeight b := by
  induction a with
  | nil => simp [stackWeight]
  | cons v a ih => simp only [List.cons_append, stackWeight, ih]; omega

theorem stackWeight_visits (os : List (Object α)) :
    stackWeight (os.map fun o => (o, false)) = 2 * sizes os := by
  induction os with
  | nil => rfl
  | cons o os ih => simp only [List.map_cons, stackWeight, ih, sizes]; simp; omega

/-- Works off a stack. There is no outcome if a child is looked up that is not finished. -/
def work : List (Visit α) → Memory α → Option (Memory α)
  | [], m => some m
  | (current, expanded) :: stack, m =>
    if current.children.isEmpty || expanded then do
      let children ← current.children.mapM fun child => m.done.get? child.id
      work stack (m.finish current children)
    else work (current.children.reverse.map (·, false) ++ (current, true) :: stack) m
termination_by stack => stackWeight stack
decreasing_by
  · rw [stackWeight, size_eq]
    split <;> omega
  · next h =>
    have unexpanded : expanded = false := by simp_all
    rw [stackWeight_append, stackWeight_visits, sizes_reverse]
    simp only [stackWeight, size_eq current, unexpanded, if_true, Bool.false_eq_true, if_false]
    omega

/-- The object for the predicate without any `must` or `should` of one child, and the next identity
that is free then. -/
def simplify (node : Object α) (next : Nat) : Option (Object α × Nat) := do
  let m ← work [(node, false)] ⟨[], next⟩
  return (← m.done.get? node.id, m.next)

mutual

/-- A predicate each of whose nodes is an object of its own. They are numbered in tree order. -/
def ofPredicate : Predicate α → Nat → Object α × Nat
  | .boolean kind first rest, next =>
    let (first, later) := ofPredicate first (next + 1)
    let (rest, last) := ofPredicates rest later
    (.boolean next kind first rest, last)
  | .boost query factor, next =>
    let (query, last) := ofPredicate query (next + 1)
    (.boost next query factor, last)
  | .parse query, next => (.leaf next (.parse query) rfl, next + 1)
  | .term field value, next => (.leaf next (.term field value) rfl, next + 1)
  | .fuzzy field value options, next => (.leaf next (.fuzzy field value options) rfl, next + 1)
  | .phrase field phrases slop, next => (.leaf next (.phrase field phrases slop) rfl, next + 1)
  | .range field range, next => (.leaf next (.range field range) rfl, next + 1)
  | .present field, next => (.leaf next (.present field) rfl, next + 1)
  | .foreign typeName, next => (.leaf next (.foreign typeName) rfl, next + 1)

def ofPredicates : List (Predicate α) → Nat → List (Object α) × Nat
  | [], next => ([], next)
  | p :: ps, next =>
    let (o, later) := ofPredicate p next
    let (os, last) := ofPredicates ps later
    (o :: os, last)

end

end Object

end SearchSql
