import SearchSql.Value.Basic

/-!
# When values count as equal

Numbers are equal if their worth is, and a truth value counts as 0 or 1. Otherwise values of two
types differ. The type of a range does not count, and moments are equal as `Moment.same` has it.
-/

namespace SearchSql

/-- The exact worth of a number in units of the least positive double. -/
def Value.worth? : Value → Option Int
  | .bool b => some (if b then Finite64.unitsPerOne else 0)
  | v => v.number?.map Number.exact

def Bound.same : Bound → Bound → Bool
  | .number a, .number b => a.exact == b.exact
  | .date a, .date b => a == b
  | .moment a, .moment b => a.same b
  | _, _ => false

def sameBound : Option Bound → Option Bound → Bool
  | none, none => true
  | some a, some b => a.same b
  | _, _ => false

mutual

def sameValue : Value → Value → Bool
  | .null, .null => true
  | .text s, .text t => s == t
  | .list vs, .list ws => sameValues vs ws
  | .tuple vs, .tuple ws => sameValues vs ws
  | .bytes bs, .bytes cs => bs == cs
  | .mapping es, .mapping fs => es.length == fs.length && sameEntries es fs
  | .date d, .date e => d == e
  | .moment m, .moment n => m.same n
  | .range r, .range s => sameRange r s
  | .field f, .field g => f == g
  | .predicate p, .predicate q => samePredicate p q
  | .real (.infinite a), .real (.infinite b) => a == b
  | v, w => match v.worth?, w.worth? with
    | some a, some b => a == b
    | _, _ => false

def sameValues : List Value → List Value → Bool
  | [], [] => true
  | v :: vs, w :: ws => sameValue v w && sameValues vs ws
  | _, _ => false

/-- Whether every entry of the first list has its like in the second. -/
def sameEntries : List (String × Value) → List (String × Value) → Bool
  | [], _ => true
  | (key, v) :: rest, entries =>
    (match entries.lookup key with
      | some w => sameValue v w
      | none => false) && sameEntries rest entries

def sameRange : SearchRange Value → SearchRange Value → Bool
  | ⟨a, b, v, w, _⟩, ⟨c, d, v', w', _⟩ =>
    sameBound a c && sameBound b d && sameValue v v' && sameValue w w'

/-- Predicates of a type that is not known are never equal. -/
def samePredicate : Predicate Value → Predicate Value → Bool
  | .parse s, .parse t => s == t
  | .term f v, .term g w => f == g && sameValue v w
  | .fuzzy f v o, .fuzzy g w o' => f == g && v == w && o == o'
  | .phrase f vs s, .phrase g ws t => f == g && sameValues vs ws && s == t
  | .range f r, .range g s => f == g && sameRange r s
  | .present f, .present g => f == g
  | .boolean k p ps, .boolean l q qs => k == l && samePredicate p q && samePredicates ps qs
  | .boost p a, .boost q b => samePredicate p q && a.number.exact == b.number.exact
  | _, _ => false

def samePredicates : List (Predicate Value) → List (Predicate Value) → Bool
  | [], [] => true
  | p :: ps, q :: qs => samePredicate p q && samePredicates ps qs
  | _, _ => false

end

end SearchSql
