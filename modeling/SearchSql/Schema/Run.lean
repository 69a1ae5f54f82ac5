import SearchSql.Schema.Registry

/-!
# Runs of registrations

A registry that is kept in one place. It is founded on indexes or on a schema, and then registers
one index after the other; what it has put down before a registration fails would stay.
-/

namespace SearchSql

/-- What an index is built from. -/
structure Registration where
  relation : String
  fields : Value
  indexName : Option String
  keyField : Option String

def Registration.build (r : Registration) : Except SchemaError SearchIndex :=
  SearchIndex.build r.relation r.fields r.indexName r.keyField

namespace Registry

/-- Puts an index down under its relation: in the place of the one that is there, or else behind
all others. -/
def put (registry : Registry) (index : SearchIndex) : Registry :=
  if registry.contains index.relation then
    ⟨registry.indexes.map fun other => if other.relation = index.relation then index else other⟩
  else ⟨registry.indexes ++ [index]⟩

/-- A computation on a registry that is kept. What it has changed before it fails stays changed. -/
abbrev Action := ExceptT SchemaError (StateM Registry)

namespace Action

/-- The registry after the action, and what has come of it. -/
def on {α : Type} (action : Action α) (registry : Registry) : Registry × Except SchemaError α :=
  let (result, registry) := action.run.run registry
  (registry, result)

/-- Puts an index down for a relation that has none. -/
def add (index : SearchIndex) : Action Unit := do
  if (← get).contains index.relation then throw (.alreadyRegistered index.relation)
  modify (·.put index)

/-- Builds an index and puts it down. -/
def register (r : Registration) : Action SearchIndex := do
  let index ← ExceptT.mk (pure r.build)
  add index
  return index

end Action

/-- What a registry is founded on: indexes that have been built, or a schema. -/
inductive Origin where
  | indexes (given : List Registration)
  | schema (rows : List (String × SchemaEntry))

def Origin.found : Origin → Except SchemaError Registry
  | .indexes given => do ofIndexes (← given.mapM Registration.build)
  | .schema rows => ofSchema rows

/-- Carries out one registration. -/
def apply (registry : Registry) (r : Registration) : Registry × Except SchemaError SearchIndex :=
  (Action.register r).on registry

/-- Carries out registrations one after the other. -/
def run (registry : Registry) :
    List Registration → Registry × List (Except SchemaError SearchIndex)
  | [] => (registry, [])
  | r :: rest =>
    let (registry, a) := registry.apply r
    let (registry, as) := registry.run rest
    (registry, a :: as)

end Registry

end SearchSql
