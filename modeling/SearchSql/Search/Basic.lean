import SearchSql.Predicate.Folding
import SearchSql.Schema.Binding
import SearchSql.Search.Option
import SearchSql.Table

/-!
# The search of one relation

Predicates and options are collected for one binding until the search is finalized. Then they are
folded into one tree, and nothing can be added any more.
-/

namespace SearchSql

/-- A finalized search: one predicate, and the options of the call. -/
structure SearchTree where
  binding : Binding
  root : Predicate Value
  options : Table SearchOption Value

/-- What is collected for a binding. Once the search is finalized, `closed` holds its tree, if it
has any predicates. -/
structure Search where
  binding : Binding
  entries : List (Entry Value)
  options : Table SearchOption Value
  closed : Option (Option SearchTree)

inductive SearchError where
  | reopened (aliasName : String)
  | notPredicate (typeName : String)
  | unknownJoin (given : Value)
  | option (e : OptionError)
  | validation (e : ValidationError)
  | optionsAlone (aliasName : String) (options : List SearchOption)
  | misuse (m : Misuse)

namespace Search

/-- The search of a binding before anything is added. -/
def ofBinding (binding : Binding) : Search := ⟨binding, [], [], none⟩

def isFinalized (s : Search) : Bool := s.closed.isSome

def size (s : Search) : Nat := s.entries.length

def requireOpen (s : Search) : Except SearchError Unit :=
  if s.isFinalized then .error (.reopened s.binding.aliasName) else .ok ()

/-- The operator that a value names. -/
def requireJoin (v : Value) : Except SearchError JoinOp :=
  match v with
  | .text name => match JoinOp.ofName? name with
    | some op => .ok op
    | none => .error (.unknownJoin v)
  | v => .error (.unknownJoin v)

/-- Adds a predicate with the named operator. -/
def add (s : Search) (node how : Value) : Except SearchError Search := do
  s.requireOpen
  match node with
  | .predicate p =>
    let op ← requireJoin how
    return { s with entries := s.entries ++ [⟨op, p⟩] }
  | v => throw (.notPredicate v.typeName)

/-- Sets an option; it replaces what was set before. -/
def setOption (s : Search) (name value : Value) : Except SearchError Search := do
  s.requireOpen
  let option ← (SearchOption.check name value).mapError .option
  return { s with options := s.options.put option value }

/-- The options that are set, in the order in which a call lists them. -/
def optionsSet (s : Search) : List SearchOption :=
  SearchOption.all.filter fun o => (s.options.get? o).isSome

/-- Checks all predicates, and that there are some if there are options. -/
def validate (s : Search) : Except SearchError Unit := do
  s.entries.forM fun e => (s.binding.validate e.node).mapError .validation
  if s.entries.isEmpty && ! s.options.isEmpty then
    throw (.optionsAlone s.binding.aliasName s.optionsSet)

/-- Validates and folds what was collected, and closes the search; a closed one keeps the tree it
has. -/
def finalize (s : Search) (strategy : Value) :
    Except SearchError (Search × Option SearchTree) :=
  match s.closed with
  | some tree => .ok (s, tree)
  | none => do
    s.validate
    let root ← (Entry.normalizeBy strategy s.entries).mapError .misuse
    let tree := root.map fun p => ⟨s.binding, p, s.options⟩
    return ({ s with closed := some tree }, tree)

end Search

def SearchError.report : SearchError → Report
  | .reopened aliasName =>
    .make .reopened "search on this relation is already finalized"
      s!"relation alias '{aliasName}' was already finalized"
  | .notPredicate typeName =>
    .make .invalidArguments "invalid predicate arguments"
      s!"expected a predicate node, got {typeName}"
  | .unknownJoin given =>
    (Report.make .invalidArguments "invalid predicate arguments"
      s!"unknown join operator {given.shown}").withCause .value
  | .option e => e.report
  | .validation e => e.report
  | .optionsAlone aliasName options =>
    let names := shownRow "[" "]" false (options.map fun o => Text.quoted o.name)
    .make .invalidOption "search options set on a relation with no search predicates"
      s!"alias '{aliasName}' has options {names} but no predicates"
  | .misuse m => m.report

end SearchSql
