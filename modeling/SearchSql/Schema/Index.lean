import SearchSql.Schema.Name
import SearchSql.Value.Access

/-!
# Search indexes

A search index covers some fields of one relation. Its fields are distinct, there is at least one,
and the key field, if any, is one of them.
-/

namespace SearchSql

/-- What is wrong with a schema. -/
inductive SchemaError where
  | name (e : NameError)
  | duplicateField (field index : String)
  | noFields (index : String)
  | unknownKey (key index : String)
  | alreadyRegistered (relation : String)
  | noFieldsEntry (relation : String)
  | misuse (m : Misuse)
  deriving DecidableEq, Repr

/-- A search index. -/
structure SearchIndex where
  relation : String
  name : String
  fieldNames : List String
  keyField : Option String
  deriving DecidableEq, Repr

namespace SearchIndex

/-- The name of an index that is given none. -/
def defaultName (relation : String) : String := Name.lastPart relation ++ "_search_idx"

/-- A field is declared by its name, or by a field that may belong to another index. -/
def declaredName? : Value → Option String
  | .text name => some name
  | .field f => some f.name
  | _ => none

/-- What is wrong with a value that declares no field: it is put through the checks of a name
until it fails one of them. -/
def declarationFault (v : Value) : SchemaError :=
  if ! v.isTrue then .name .empty
  else match v.items? with
    | none => .misuse (.noLength v.fullTypeName)
    | some items =>
      if Name.maxLength < items.length then .name (.tooLong v.display)
      else if v matches .bytes _ then .misuse .bytesForText
      else .misuse (.noText v.fullTypeName)

/-- The checked name of a declared field. -/
def declaredName (v : Value) : Except SchemaError String :=
  match declaredName? v with
  | some name => ((Name.check name).mapError .name).map fun _ => name
  | none => .error (declarationFault v)

/-- The names of the declared fields in order, none of them twice. -/
def checkFields (index : String) : List String → List Value → Except SchemaError (List String)
  | seen, [] => .ok seen
  | seen, v :: rest => do
    let f ← declaredName v
    if seen.contains f then throw (.duplicateField f index)
    checkFields index (seen ++ [f]) rest

/-- The index over the declared fields, which are the items of a value. An empty name stands for
the default one. -/
def build (relation : String) (fields : Value) (name keyField : Option String) :
    Except SchemaError SearchIndex := do
  (Name.checkRelation relation).mapError .name
  let name := match name with
    | some n => if n.isEmpty then defaultName relation else n
    | none => defaultName relation
  (Name.checkRelation name).mapError .name
  let items ← fields.requireItems.mapError .misuse
  let fieldNames ← checkFields name [] items
  if fieldNames.isEmpty then throw (.noFields name)
  match keyField with
  | some key => if ! fieldNames.contains key then throw (.unknownKey key name)
  | none => pure ()
  return ⟨relation, name, fieldNames, keyField⟩

/-- The fields of the index, in the order of their declaration. -/
def fields (index : SearchIndex) : List SearchField :=
  index.fieldNames.map fun f => ⟨f, index.name⟩

def findField? (index : SearchIndex) (name : String) : Option SearchField :=
  if index.fieldNames.contains name then some ⟨name, index.name⟩ else none

def contains (index : SearchIndex) (name : String) : Bool := index.fieldNames.contains name

def size (index : SearchIndex) : Nat := index.fieldNames.length

/-- The form in which an index is shown. -/
def shown (index : SearchIndex) : String :=
  let relation := Text.quoted index.relation
  let fields := String.intercalate ", " (index.fieldNames.map Text.quoted)
  let name := Text.quoted index.name
  s!"SearchIndex({relation}, [{fields}], name={name})"

end SearchIndex

def SchemaError.report : SchemaError → Report
  | .name e => e.report
  | .duplicateField field index =>
    .make .invalidSchema "invalid search schema" s!"duplicate field '{field}' in index '{index}'"
  | .noFields index =>
    .make .invalidSchema "invalid search schema" s!"index '{index}' declares no fields"
  | .unknownKey key index =>
    .make .invalidSchema "invalid search schema"
      s!"key field '{key}' is not a field of index '{index}'"
  | .alreadyRegistered relation =>
    .make .invalidSchema "invalid search schema" s!"relation '{relation}' is already registered"
  | .noFieldsEntry relation =>
    .make .invalidSchema "invalid search schema"
      s!"schema entry for '{relation}' has no 'fields' key"
  | .misuse m => m.report

end SearchSql
