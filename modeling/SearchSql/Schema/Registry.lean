import SearchSql.Schema.Index

/-!
# The registry

The search indexes that are known, at most one for a relation, in the order of registration. What
is registered stays as it is.
-/

namespace SearchSql

/-- The search indexes by relation. -/
structure Registry where
  indexes : List SearchIndex
  deriving DecidableEq, Repr

/-- What a schema says of a relation: its fields, or its fields with a name for the index and a
key field. The fields may be missing from such a description. -/
inductive SchemaEntry where
  | fields (fields : Value)
  | described (fields : Option Value) (indexName keyField : Option String)

namespace Registry

def empty : Registry := ⟨[]⟩

def get? (registry : Registry) (relation : String) : Option SearchIndex :=
  registry.indexes.find? (·.relation = relation)

def contains (registry : Registry) (relation : String) : Bool :=
  (registry.get? relation).isSome

def size (registry : Registry) : Nat := registry.indexes.length

/-- Adds an index for a relation that has none. -/
def add (registry : Registry) (index : SearchIndex) : Except SchemaError Registry :=
  if registry.contains index.relation then .error (.alreadyRegistered index.relation)
  else .ok ⟨registry.indexes ++ [index]⟩

def ofIndexes (indexes : List SearchIndex) : Except SchemaError Registry :=
  indexes.foldlM add empty

/-- Builds an index and adds it. -/
def register (registry : Registry) (relation : String) (fields : Value)
    (indexName keyField : Option String) : Except SchemaError (Registry × SearchIndex) := do
  let index ← SearchIndex.build relation fields indexName keyField
  return (← registry.add index, index)

def registerEntry (registry : Registry) (relation : String) :
    SchemaEntry → Except SchemaError Registry
  | .fields fields => (registry.register relation fields none none).map Prod.fst
  | .described (some fields) indexName keyField =>
    (registry.register relation fields indexName keyField).map Prod.fst
  | .described none _ _ => .error (.noFieldsEntry relation)

/-- The registry of a schema, whose relations are distinct. -/
def ofSchema (schema : List (String × SchemaEntry)) : Except SchemaError Registry :=
  schema.foldlM (fun registry (relation, entry) => registry.registerEntry relation entry) empty

end Registry

end SearchSql
