import SearchSql.Statement.Basic

/-!
# Runs of operations

The operations on a statement as data, and what a sequence of them does. An operation that fails
gives its error as the answer, and the run goes on.
-/

namespace SearchSql

namespace Statement

inductive Operation where
  | selectFrom (relation : String) (aliasName : Option String)
  | join (relation : String) (aliasName condition : Option String) (kind : String)
  | addColumns (columns : List String)
  | addCondition (fragment : String)
  | addOrdering (fragment : String)
  | add (aliasName : String) (node how : Value)
  | setOption (aliasName : String) (name value : Value)
  | finalize
  | expressions (settings : Settings)
  | build (settings : Settings)

inductive Answer where
  | done
  | trees (trees : List SearchTree)
  | expressions (expressions : List Expression)
  | built (sql : String) (parameters : List Value)

/-- A change of clauses: if it fails, the statement stays as it was. -/
def change (s : Statement) (next : Except StatementError Statement) :
    Statement × Except StatementError Answer :=
  match next with
  | .ok s => (s, .ok .done)
  | .error e => (s, .error e)

def answer {α : Type} (f : α → Answer) (next : Statement × Except StatementError α) :
    Statement × Except StatementError Answer :=
  (next.1, next.2.map f)

/-- Carries out one operation. -/
def apply (s : Statement) : Operation → Statement × Except StatementError Answer
  | .selectFrom relation aliasName => s.change (s.selectFrom relation aliasName)
  | .join relation aliasName condition kind => s.change (s.join relation aliasName condition kind)
  | .addColumns columns => (s.addColumns columns, .ok .done)
  | .addCondition fragment => (s.addCondition fragment, .ok .done)
  | .addOrdering fragment => (s.addOrdering fragment, .ok .done)
  | .add aliasName node how => answer (fun _ => .done) (s.add aliasName node how)
  | .setOption aliasName name value => answer (fun _ => .done) (s.setOption aliasName name value)
  | .finalize => answer .trees s.finalize
  | .expressions settings => answer .expressions (s.expressions settings)
  | .build settings => answer (fun b => .built b.1 b.2) (s.build settings)

/-- Carries out operations one after the other. -/
def run (s : Statement) : List Operation → Statement × List (Except StatementError Answer)
  | [] => (s, [])
  | op :: rest =>
    let (s, a) := s.apply op
    let (s, as) := s.run rest
    (s, a :: as)

end Statement

end SearchSql
