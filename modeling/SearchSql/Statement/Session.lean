import SearchSql.Call.Emitter
import SearchSql.Statement.Run

/-!
# Sessions

A statement can be built by an emitter that is made for the purpose, or by one that is kept and
shared between builds. A session is a statement with the emitters that are shared.
-/

namespace SearchSql

namespace Statement

/-- The calls of all searches, written by one emitter. -/
def emitAllBy (e : Emitter) (first : Int) :
    List SearchTree → Emitter × Except EmissionError (List Expression)
  | [] => (e, .ok [])
  | tree :: rest =>
    match e.emit tree first with
    | (e, .error x) => (e, .error x)
    | (e, .ok expression) =>
      let (e, later) := emitAllBy e (first + expression.parameters.length) rest
      (e, later.map (expression :: ·))

/-- Finalizes the statement and has its searches emitted. -/
def expressionsBy (s : Statement) (e : Emitter) :
    Statement × Emitter × Except StatementError (List Expression) :=
  match s.finalize with
  | (s, .error x) => (s, e, .error x)
  | (s, .ok trees) =>
    let (e, result) := emitAllBy e 1 trees
    (s, e, result.mapError .emission)

/-- The SELECT and its parameters, with the calls as the emitter has written them. -/
def buildBy (s : Statement) (e : Emitter) :
    Statement × Emitter × Except StatementError (String × List Value) :=
  if s.refs.isEmpty then (s, e, .error .noFrom)
  else match s.expressionsBy e with
    | (s, e, .error x) => (s, e, .error x)
    | (s, e, .ok expressions) =>
      (s, e, .ok (s.render expressions, expressions.flatMap (·.parameters)))

end Statement

/-- A statement, and the emitters that are shared by its builds, each under a number. -/
structure Session where
  statement : Statement
  emitters : Nat → Emitter

namespace Session

inductive Operation where
  /-- An operation on the statement; if it is a build, by an emitter of its own. -/
  | alone (op : Statement.Operation)
  | expressions (emitter : Nat)
  | build (emitter : Nat)

/-- The session after a build by one of its emitters. -/
def put (s : Session) (statement : Statement) (i : Nat) (e : Emitter) : Session :=
  ⟨statement, fun j => if j = i then e else s.emitters j⟩

/-- Carries out one operation. -/
def apply (s : Session) : Operation → Session × Except StatementError Statement.Answer
  | .alone op =>
    let (statement, a) := s.statement.apply op
    ({ s with statement }, a)
  | .expressions i =>
    let (statement, e, result) := s.statement.expressionsBy (s.emitters i)
    (s.put statement i e, result.map .expressions)
  | .build i =>
    let (statement, e, result) := s.statement.buildBy (s.emitters i)
    (s.put statement i e, result.map fun b => .built b.1 b.2)

/-- Carries out operations one after the other. -/
def run (s : Session) : List Operation → Session × List (Except StatementError Statement.Answer)
  | [] => (s, [])
  | op :: rest =>
    let (s, a) := s.apply op
    let (s, as) := s.run rest
    (s, a :: as)

end Session

end SearchSql
