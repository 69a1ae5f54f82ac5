import SearchSql.Range.Basic

/-!
# Search predicates

The tree of a search: leaves that look at one field or carry a query text, boolean combinations
and boosts. The type of the values that a leaf holds is a parameter.
-/

namespace SearchSql

/-- How a boolean combination reads its children: all hold, some hold, none holds. -/
inductive Kind where
  | must
  | should
  | mustNot
  deriving DecidableEq, Repr

namespace Kind

def name : Kind → String
  | .must => "must"
  | .should => "should"
  | .mustNot => "must_not"

def all : List Kind := [.must, .should, .mustNot]

def ofName? (s : String) : Option Kind := all.find? (·.name = s)

end Kind

/-- The optional arguments of a fuzzy term: the edit distance, whether a transposition counts as
one edit, and whether the value is matched as the start of a word. -/
structure FuzzyOptions where
  distance : Option (Fin 3)
  transposeCostOne : Option Bool
  prefixMatch : Option Bool
  deriving DecidableEq, Repr

/-- The double nearest to a number, unless it lies past the largest one. -/
def Number.toFinite64? : Number → Option Finite64
  | .int n => Finite64.ofInt? n
  | .real x => some x

/-- The factor of a boost: a number, and the finite double that is written for it. -/
structure Factor where
  number : Number
  value : Finite64
  nearest : number.toFinite64? = some value
  deriving DecidableEq

/-- A search predicate. A boolean combination has at least one child. -/
inductive Predicate (α : Type) where
  | parse (query : String)
  | term (field : String) (value : α)
  | fuzzy (field value : String) (options : FuzzyOptions)
  | phrase (field : String) (phrases : List α) (slop : Option Nat)
  | range (field : String) (range : SearchRange α)
  | present (field : String)
  | boolean (kind : Kind) (first : Predicate α) (rest : List (Predicate α))
  | boost (query : Predicate α) (factor : Factor)
  | foreign (typeName : String)

namespace Predicate

variable {α : Type}

def children : Predicate α → List (Predicate α)
  | .boolean _ first rest => first :: rest
  | .boost query _ => [query]
  | _ => []

/-- The field that a leaf looks at. -/
def field? : Predicate α → Option String
  | .term field _ => some field
  | .fuzzy field _ _ => some field
  | .phrase field _ _ => some field
  | .range field _ => some field
  | .present field => some field
  | _ => none

mutual

/-- The number of nodes. -/
def size : Predicate α → Nat
  | .boolean _ first rest => 1 + (size first + sizeAll rest)
  | .boost query _ => 1 + size query
  | _ => 1

def sizeAll : List (Predicate α) → Nat
  | [] => 0
  | p :: ps => size p + sizeAll ps

end

theorem size_eq (p : Predicate α) : p.size = 1 + sizeAll p.children := by
  cases p <;> simp [size, sizeAll, children]

@[simp] theorem sizeAll_append (ps qs : List (Predicate α)) :
    sizeAll (ps ++ qs) = sizeAll ps + sizeAll qs := by
  induction ps with
  | nil => simp [sizeAll]
  | cons p ps ih => simp [sizeAll, ih, Nat.add_assoc]

@[simp] theorem sizeAll_reverse (ps : List (Predicate α)) : sizeAll ps.reverse = sizeAll ps := by
  induction ps with
  | nil => rfl
  | cons p ps ih => simp [sizeAll, ih, Nat.add_comm]

mutual

/-- The number of nodes on the longest way down. -/
def depth : Predicate α → Nat
  | .boolean _ first rest => 1 + max (depth first) (depthAll rest)
  | .boost query _ => 1 + depth query
  | _ => 1

def depthAll : List (Predicate α) → Nat
  | [] => 0
  | p :: ps => max (depth p) (depthAll ps)

end

end Predicate

end SearchSql
