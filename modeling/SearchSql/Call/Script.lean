import SearchSql.Call.Dialect
import SearchSql.Search.Basic

/-!
# Scripts

What is written for a search call, as a row of steps: fixed text, slots for values, and the marks
at which a predicate begins. How a slot is filled is decided when the script is played.
-/

namespace SearchSql

inductive Step where
  /-- Text that is written as it is. -/
  | text (s : String)
  /-- A predicate at this depth begins. -/
  | enter (depth : Nat)
  /-- A value, and the argument it is given for. -/
  | slot (value : Value) (argument : Option Argument)
  /-- A predicate of a type that cannot be written. -/
  | unsupported (typeName : String)

abbrev Script := List Step

namespace Script

/-- The scripts with a comma between each two. -/
def commaSeparated : List Script → Script
  | [] => []
  | [s] => s
  | s :: rest => s ++ .text ", " :: commaSeparated rest

/-- An argument of a call with its name. -/
def named (name arrow : String) (value : Script) : Script := .text (name ++ arrow) :: value

/-- A call of a function. -/
def call (function : String) (arguments : List Script) : Script :=
  .text (function ++ "(") :: commaSeparated arguments ++ [.text ")"]

end Script

namespace Style

open Script

/-- A call that looks at a field. -/
def leaf (style : Style) (function field : String) (arguments : List (String × Script)) : Script :=
  call (style.namespaceText ++ function)
    (named "field" style.leafArrow [.text (Sql.quote field)] ::
      arguments.map fun (name, value) => named name style.leafArrow value)

/-- An optional argument, if there is a value for it. -/
def optional (style : Style) (argument : Argument) : Option Value → List (String × Script)
  | none => []
  | some v => [(style.argumentName argument, [.slot v (some argument)])]

/-- The optional arguments of a fuzzy term. -/
def fuzzyArguments (style : Style) (options : FuzzyOptions) : List (String × Script) :=
  style.optional .distance (options.distance.map fun d => .int d.val) ++
    style.optional .transposeCostOne (options.transposeCostOne.map .bool) ++
    style.optional .prefixMatch (options.prefixMatch.map .bool)

mutual

/-- The script of a predicate at a depth. -/
def script (style : Style) (depth : Nat) : Predicate Value → Script
  | .parse query =>
    .enter depth :: call (style.namespaceText ++ "parse") [[.slot (.text query) none]]
  | .term field value =>
    .enter depth :: style.leaf "term" field [("value", [.slot value none])]
  | .fuzzy field value options =>
    .enter depth :: style.leaf "fuzzy_term" field
      (("value", [.slot (.text value) none]) :: style.fuzzyArguments options)
  | .phrase field phrases slop =>
    .enter depth :: style.leaf "phrase" field
      (("phrases", [.slot (.list phrases) none]) ::
        style.optional .slop (slop.map fun n => .int n))
  | .range field range =>
    .enter depth :: style.leaf "range" field [("range", [.slot (.range range) none])]
  | .present field => .enter depth :: style.leaf "exists" field []
  | .boolean kind first rest =>
    .enter depth :: call (style.namespaceText ++ "boolean")
      [named kind.name " => "
        (.text style.arrayOpen ::
          commaSeparated (script style (depth + 1) first :: scripts style (depth + 1) rest) ++
          [.text style.arrayClose])]
  | .boost query factor =>
    .enter depth :: call (style.namespaceText ++ "boost")
      [named "factor" " => " [.slot (.real (.finite factor.value)) (some .factor)],
        named "query" " => " (script style (depth + 1) query)]
  | .foreign typeName => [.enter depth, .unsupported typeName]

def scripts (style : Style) (depth : Nat) : List (Predicate Value) → List Script
  | [] => []
  | p :: ps => script style depth p :: scripts style depth ps

end

/-- The options of a search call in their order. -/
def optionArguments (options : Table SearchOption Value) : List Script :=
  SearchOption.all.filterMap fun o =>
    (options.get? o).map fun v => named o.name " => " [.slot v (some (.option o))]

/-- The script of a search call. -/
def searchCall (style : Style) (tree : SearchTree) : Script :=
  call (tree.binding.index.name ++ ".search")
    (named "query" " => " (style.script 1 tree.root) :: optionArguments tree.options)

end Style

end SearchSql
