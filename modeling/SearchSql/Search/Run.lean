import SearchSql.Search.Action

/-!
# Runs of operations on a search

The operations on the search of one relation as data, and what a sequence of them does.
-/

namespace SearchSql

namespace Search

inductive Operation where
  | add (node how : Value)
  | setOption (name value : Value)
  | validate
  | finalize (strategy : Value)

/-- The action of an operation. Its result is the tree of a finalized search. -/
def Operation.action : Operation → Action (Option SearchTree)
  | .add node how => do
    Action.add node how
    return none
  | .setOption name value => do
    Action.setOption name value
    return none
  | .validate => do
    Action.validate
    return none
  | .finalize strategy => Action.finalize strategy

/-- Carries out one operation. -/
def apply (s : Search) (op : Operation) : Search × Except SearchError (Option SearchTree) :=
  op.action.on s

/-- Carries out operations one after the other. -/
def run (s : Search) : List Operation → Search × List (Except SearchError (Option SearchTree))
  | [] => (s, [])
  | op :: rest =>
    let (s, a) := s.apply op
    let (s, as) := s.run rest
    (s, a :: as)

end Search

end SearchSql
