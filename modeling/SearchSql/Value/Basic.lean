import SearchSql.Predicate.Basic

/-!
# Values

The values that an application may put into a search, encodable or not.
-/

namespace SearchSql

/-- A field that can be searched, by its name and the name of the index that covers it. -/
structure SearchField where
  name : String
  indexName : String
  deriving DecidableEq, Repr

inductive Value where
  | null
  | bool (b : Bool)
  | int (n : Int)
  | real (x : Binary64)
  | text (s : String)
  | list (items : List Value)
  | tuple (items : List Value)
  | bytes (bytes : List UInt8)
  | mapping (entries : List (String × Value))
  | date (d : Date)
  | moment (m : Moment)
  | range (r : SearchRange Value)
  | field (f : SearchField)
  | predicate (p : Predicate Value)

namespace Predicate

/-- The name of the type of a node. -/
def typeName {α : Type} : Predicate α → String
  | .parse _ => "Parse"
  | .term _ _ => "Term"
  | .fuzzy _ _ _ => "FuzzyTerm"
  | .phrase _ _ _ => "Phrase"
  | .range _ _ => "Range"
  | .present _ => "Exists"
  | .boolean _ _ _ => "Boolean"
  | .boost _ _ => "Boost"
  | .foreign typeName => typeName

end Predicate

namespace Value

/-- The name of the type of a value. -/
def typeName : Value → String
  | .null => "NoneType"
  | .bool _ => "bool"
  | .int _ => "int"
  | .real _ => "float"
  | .text _ => "str"
  | .list _ => "list"
  | .tuple _ => "tuple"
  | .bytes _ => "bytes"
  | .mapping _ => "dict"
  | .date _ => "date"
  | .moment _ => "datetime"
  | .range _ => "SearchRange"
  | .field _ => "SearchField"
  | .predicate p => p.typeName

/-- The name of the type of a value with the module that it belongs to. -/
def fullTypeName : Value → String
  | .date _ => "datetime.date"
  | .moment _ => "datetime.datetime"
  | v => v.typeName

/-- Whether a value counts as true: nothing, zero, and what is empty do not. -/
def isTrue : Value → Bool
  | .null => false
  | .bool b => b
  | .int n => n != 0
  | .real (.finite x) => x.rank != 0
  | .text s => ! s.isEmpty
  | .list items => ! items.isEmpty
  | .tuple items => ! items.isEmpty
  | .bytes bs => ! bs.isEmpty
  | .mapping entries => ! entries.isEmpty
  | _ => true

/-- The number that a value is, unless it is a truth value or not finite. -/
def number? : Value → Option Number
  | .int n => some (.int n)
  | .real (.finite x) => some (.real x)
  | _ => none

/-- The items of a value that can be gone through: a text has its characters, a mapping its keys. -/
def items? : Value → Option (List Value)
  | .text s => some (s.toList.map fun c => .text (String.singleton c))
  | .list items => some items
  | .tuple items => some items
  | .bytes bs => some (bs.map fun b => .int b.toNat)
  | .mapping entries => some (entries.map fun (key, _) => .text key)
  | _ => none

/-- The value as it is offered for a bound of a range. -/
def toBoundOffer : Value → Option BoundOffer
  | .null => none
  | .bool b => some (.bool b)
  | .int n => some (.number (.int n))
  | .real x => some (.ofBinary64 x)
  | .date d => some (.date d)
  | .moment m => some (.moment m)
  | v => some (.other v.typeName)

/-- A range whose flags are truth values, as a value. -/
def ofRange (r : SearchRange Bool) : Value := .range (r.map .bool)

end Value

/-- The range with the truth of its flags in place of them. -/
def SearchRange.plain (r : SearchRange Value) : SearchRange Bool := r.map Value.isTrue

@[simp] theorem SearchRange.plain_map_bool (r : SearchRange Bool) :
    (r.map Value.bool).plain = r := rfl

end SearchSql
