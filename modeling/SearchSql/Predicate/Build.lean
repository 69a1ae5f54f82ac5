import SearchSql.Value.Access

/-!
# Building predicates

Predicates are built from arbitrary values, whose types and sizes are checked here; what the
checks let through is what the type of predicates allows.
-/

namespace SearchSql

/-- What is wrong with the arguments of a predicate. -/
inductive PredicateError where
  | misuse (m : Misuse)
  | range (e : RangeError)
  | noField (node : String) (given : Value)
  | notBool (option node : String) (given : Value)
  | parseQuery (typeName : String)
  | fuzzyValue (typeName : String)
  | fuzzyDistance (given : Value)
  | singlePhrase
  | noPhrases
  | phraseSlop (given : Value)
  | rangeValue (typeName : String)
  | unknownKind (given : Value)
  | noChildren (kind : Kind)
  | child (typeName : String)
  | boostQuery (typeName : String)
  | boostFactor (given : Value)

namespace Predicate

/-- A field is named by a text that is not empty. -/
def requireField (node : String) (v : Value) : Except PredicateError String :=
  match v with
  | .text s => if s.isEmpty then .error (.noField node v) else .ok s
  | v => .error (.noField node v)

def optionalBool (option node : String) : Value → Except PredicateError (Option Bool)
  | .null => .ok none
  | .bool b => .ok (some b)
  | v => .error (.notBool option node v)

def mkParse : Value → Except PredicateError (Predicate Value)
  | .text s => .ok (.parse s)
  | v => .error (.parseQuery v.typeName)

def mkTerm (field value : Value) : Except PredicateError (Predicate Value) := do
  let field ← requireField "term" field
  return .term field value

/-- An edit distance is a whole number up to two. -/
def fuzzyDistance (v : Value) : Except PredicateError (Option (Fin 3)) :=
  match v with
  | .null => .ok none
  | .int (.ofNat n) => if h : n < 3 then .ok (some ⟨n, h⟩) else .error (.fuzzyDistance v)
  | v => .error (.fuzzyDistance v)

def mkFuzzy (field value distance transposeCostOne prefixMatch : Value) :
    Except PredicateError (Predicate Value) := do
  let field ← requireField "fuzzy_term" field
  match value with
  | .text s =>
    let distance ← fuzzyDistance distance
    let transposeCostOne ← optionalBool "transpose_cost_one" "fuzzy_term" transposeCostOne
    let prefixMatch ← optionalBool "prefix" "fuzzy_term" prefixMatch
    return .fuzzy field s ⟨distance, transposeCostOne, prefixMatch⟩
  | v => throw (.fuzzyValue v.typeName)

/-- The slop of a phrase is a natural number. -/
def phraseSlop (v : Value) : Except PredicateError (Option Nat) :=
  match v with
  | .null => .ok none
  | .int (.ofNat n) => .ok (some n)
  | v => .error (.phraseSlop v)

def mkPhrase (field phrases slop : Value) : Except PredicateError (Predicate Value) := do
  let field ← requireField "phrase" field
  if phrases matches .text _ then throw .singlePhrase
  let phrases ← phrases.requireItems.mapError .misuse
  if phrases.isEmpty then throw .noPhrases
  let slop ← phraseSlop slop
  return .phrase field phrases slop

/-- The range is given as such or as a range literal. -/
def mkRange (field range : Value) : Except PredicateError (Predicate Value) := do
  let field ← requireField "range" field
  match range with
  | .text s => return .range field ((← (SearchRange.read s .inferred).mapError .range).map .bool)
  | .range r => return .range field r
  | v => throw (.rangeValue v.typeName)

def mkPresent (field : Value) : Except PredicateError (Predicate Value) := do
  let field ← requireField "exists" field
  return .present field

def requireKind (v : Value) : Except PredicateError Kind :=
  match v with
  | .text s => match Kind.ofName? s with
    | some kind => .ok kind
    | none => .error (.unknownKind v)
  | v => .error (.unknownKind v)

def requireChildren : List Value → Except PredicateError (List (Predicate Value))
  | [] => .ok []
  | .predicate p :: rest => do return p :: (← requireChildren rest)
  | v :: _ => .error (.child v.typeName)

/-- A boolean combination of at least one predicate. -/
def combination (kind : Kind) (children : List Value) :
    Except PredicateError (Predicate Value) := do
  match ← requireChildren children with
  | [] => throw (.noChildren kind)
  | first :: rest => return .boolean kind first rest

def mkBoolean (kind children : Value) : Except PredicateError (Predicate Value) := do
  let kind ← requireKind kind
  combination kind (← children.requireItems.mapError .misuse)

/-- The factor of a boost is a finite number. -/
def requireFactor (v : Value) : Except PredicateError Factor :=
  match v.number? with
  | some n => match h : n.toFinite64? with
    | some x => .ok ⟨n, x, h⟩
    | none => .error (.misuse .tooLarge)
  | none => .error (.boostFactor v)

def mkBoost (query factor : Value) : Except PredicateError (Predicate Value) :=
  match query with
  | .predicate p => do return .boost p (← requireFactor factor)
  | v => .error (.boostQuery v.typeName)

end Predicate

def PredicateError.report : PredicateError → Report
  | .misuse m => m.report
  | .range e => e.report
  | .noField node given => invalid s!"{node} requires a non-empty field name, got {given.shown}"
  | .notBool option node given => invalid s!"{node} {option} must be a boolean, got {given.shown}"
  | .parseQuery typeName => invalid s!"parse query must be a string, got {typeName}"
  | .fuzzyValue typeName => invalid s!"fuzzy_term value must be a string, got {typeName}"
  | .fuzzyDistance given =>
    invalid s!"fuzzy_term distance must be an integer in 0..2, got {given.shown}"
  | .singlePhrase => invalid "phrase terms must be a list of strings, not a single string"
  | .noPhrases => invalid "phrase requires at least one term"
  | .phraseSlop given => invalid s!"phrase slop must be a non-negative integer, got {given.shown}"
  | .rangeValue typeName =>
    invalid s!"range must be a SearchRange or range literal, got {typeName}"
  | .unknownKind given => (invalid s!"unknown boolean kind {given.shown}").withCause .value
  | .noChildren kind => invalid s!"boolean {kind.name} requires at least one child"
  | .child typeName => invalid s!"boolean child must be a predicate node, got {typeName}"
  | .boostQuery typeName => invalid s!"boost query must be a predicate node, got {typeName}"
  | .boostFactor given => invalid s!"boost factor must be a finite number, got {given.shown}"
where
  invalid (detail : String) : Report :=
    .make .invalidArguments "invalid predicate arguments" detail

end SearchSql
