import SearchSql.Predicate.Traversal
import SearchSql.Schema.Registry
import SearchSql.Literal.Basic

/-!
# Bindings

An alias of a query is bound to the search index of its relation; predicates are checked against
the index they are bound to.
-/

namespace SearchSql

/-- An alias with its relation and the search index of the relation. -/
structure Binding where
  aliasName : String
  relation : String
  index : SearchIndex
  deriving DecidableEq, Repr

inductive BindingError where
  | unregistered (relation : String)
  | unbound (aliasName : String)
  | bound (aliasName relation other : String)
  | unknownField (field : String) (binding : Binding)
  deriving DecidableEq, Repr

/-- Why a predicate does not fit its binding. -/
inductive ValidationError where
  | binding (e : BindingError)
  | literal (e : LiteralError)
  deriving DecidableEq, Repr

namespace Predicate

/-- The value that a leaf compares with. -/
def literal? : Predicate Value → Option Value
  | .parse query => some (.text query)
  | .term _ value => some value
  | .fuzzy _ value _ => some (.text value)
  | .phrase _ phrases _ => some (.tuple phrases)
  | .range _ r => some (.range r)
  | _ => none

/-- The values that the leaves compare with, in tree order. -/
def literals (p : Predicate Value) : List Value := p.nodes.filterMap literal?

/-- Checks that all values that the leaves compare with are literals. -/
def checkLiterals (p : Predicate Value) : Except LiteralError Unit :=
  p.literals.forM fun v => v.encode.map fun _ => ()

end Predicate

namespace Binding

/-- Binds an alias to the index that the registry has for a relation. -/
def ofRegistry (registry : Registry) (aliasName relation : String) :
    Except BindingError Binding :=
  match registry.get? relation with
  | some index => .ok ⟨aliasName, relation, index⟩
  | none => .error (.unregistered relation)

/-- The index a field belongs to. -/
def resolve (binding : Binding) (field : String) : Except BindingError SearchIndex :=
  match binding.index.findField? field with
  | some _ => .ok binding.index
  | none => .error (.unknownField field binding)

/-- Checks every field of a predicate, then everything it compares with. -/
def validate (binding : Binding) (p : Predicate Value) : Except ValidationError Unit := do
  p.fields.forM fun f => (binding.resolve f).mapError .binding |>.map fun _ => ()
  p.checkLiterals.mapError .literal

end Binding

/-- The aliases that are bound, against a registry. -/
structure Bindings where
  registry : Registry
  bound : List Binding

namespace Bindings

def ofRegistry (registry : Registry) : Bindings := ⟨registry, []⟩

def get (bindings : Bindings) (aliasName : String) : Except BindingError Binding :=
  match bindings.bound.find? (·.aliasName = aliasName) with
  | some binding => .ok binding
  | none => .error (.unbound aliasName)

/-- The bindings with one more. -/
def add (bindings : Bindings) (binding : Binding) : Bindings :=
  { bindings with bound := bindings.bound ++ [binding] }

/-- Binds an alias. It may be bound again, but only to the relation it has. -/
def bind (bindings : Bindings) (aliasName relation : String) :
    Except BindingError (Bindings × Binding) :=
  match bindings.bound.find? (·.aliasName = aliasName) with
  | some binding =>
    if binding.relation = relation then .ok (bindings, binding)
    else .error (.bound aliasName binding.relation relation)
  | none =>
    (Binding.ofRegistry bindings.registry aliasName relation).map fun binding =>
      (bindings.add binding, binding)

theorem bind_new {bindings : Bindings} {aliasName : String}
    (new : bindings.bound.find? (·.aliasName = aliasName) = none) (relation : String) :
    bindings.bind aliasName relation =
      (Binding.ofRegistry bindings.registry aliasName relation).map fun binding =>
        (bindings.add binding, binding) := by
  rw [bind, new]

def resolve (bindings : Bindings) (aliasName field : String) :
    Except BindingError SearchIndex := do
  (← bindings.get aliasName).resolve field

/-- Checks a predicate against the binding of an alias. The alias is looked up for each field, so
a predicate without fields is checked for its literals alone. -/
def validate (bindings : Bindings) (aliasName : String) (p : Predicate Value) :
    Except ValidationError Unit := do
  p.fields.forM fun f => (bindings.resolve aliasName f).mapError .binding |>.map fun _ => ()
  p.checkLiterals.mapError .literal

end Bindings

def BindingError.report : BindingError → Report
  | .unregistered relation =>
    .make .unknownRelation "relation is not bound to a search index"
      s!"relation '{relation}' has no registered search index"
  | .unbound aliasName =>
    .make .unknownRelation "relation is not bound to a search index"
      s!"alias '{aliasName}' is not bound to a search index"
  | .bound aliasName relation other =>
    .make .invalidBinding "alias is already bound to another relation"
      s!"alias '{aliasName}' is bound to '{relation}', not '{other}'"
  | .unknownField field binding =>
    let index := binding.index.name
    let relation := binding.relation
    let aliasName := binding.aliasName
    .make .unknownField "field not found in search index"
      (s!"field '{field}' not found in index '{index}' " ++
        s!"for relation '{relation}' (alias '{aliasName}')")

def ValidationError.report : ValidationError → Report
  | .binding e => e.report
  | .literal e => e.report

end SearchSql
