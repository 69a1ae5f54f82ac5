import SearchSql.Call.Emitter

/-!
# Scribes

Each dialect writes the pieces of a call by methods of its own. They are handed the writing of the
values and predicates that belong into a piece, which the emitter provides; where that goes and what
stands around it is up to the method.
-/

namespace SearchSql

/-- The name of an argument among those of a predicate. -/
def Argument.name : Argument → String
  | .option o => o.name
  | .distance => "distance"
  | .transposeCostOne => "transpose_cost_one"
  | .prefixMatch => "prefix"
  | .slop => "slop"
  | .factor => "factor"

/-- An argument of a call: its name, and the writing of its value. -/
abbrev NamedWriting := String × Writing

/-- Writes the arguments of a call with their names. -/
def Writing.arguments (arrow : String) (arguments : List NamedWriting) : List Writing :=
  arguments.map fun (name, w) => named name arrow w

/-- The methods by which a dialect writes. -/
structure Scribe where
  literal : Literal → Writing
  placeholder : Int → Literal → Option Argument → Writing
  parse (query : Writing) : Writing
  term (field : String) (value : Writing) : Writing
  fuzzyTerm (field : String) (value : Writing) (options : List NamedWriting) : Writing
  phrase (field : String) (phrases : Writing) (slop : Option Writing) : Writing
  range (field : String) (range : Writing) : Writing
  present (field : String) : Writing
  boolean (kind : String) (children : List Writing) : Writing
  boost (factor query : Writing) : Writing
  searchCall (index : String) (query : Writing) (options : List NamedWriting) : Writing
  /-- The name of an optional argument of a fuzzy term. -/
  fuzzyOption : Argument → String

namespace Scribe

open Writing (text row call arguments deeper)

/-! ## Calls that the database executes -/

namespace Paradedb

def literal : Literal → Writing
  | .string s => text (Sql.quote s)
  | .boolean b => text (if b then "true" else "false")
  | .float x => text (String.ofList (Number.finiteText x))
  | .integer n => text (String.ofList (Number.intText n))
  | .range s type => text (Sql.quote s ++ "::" ++ type.name)
  | .textArray items => row "ARRAY[" "]::text[]" (items.map fun item => text (Sql.quote item))

/-- A placeholder is cast to the type that is declared for the argument, or else to the type of the
literal. -/
def placeholder (number : Int) (literal : Literal) (argument : Option Argument) : Writing :=
  let type := (argument.bind Argument.declaredType?).getD literal.sqlType
  text ("$" ++ String.ofList (Number.intText number) ++ "::" ++ type)

def phrase (field : String) (phrases : Writing) (slop : Option Writing) : Writing :=
  let given := [("field", text (Sql.quote field)), ("phrases", phrases)]
  match slop with
  | none => call "paradedb.phrase" (arguments " => " given)
  | some slop => call "paradedb.phrase" (arguments " => " (given ++ [("slop", slop)]))

def fuzzyOption : Argument → String
  | .transposeCostOne => "transposition_cost_one"
  | option => option.name

end Paradedb

def paradedb : Scribe where
  literal := Paradedb.literal
  placeholder := Paradedb.placeholder
  parse query := call "paradedb.parse" [query]
  term field value :=
    call "paradedb.term" (arguments " => " [("field", text (Sql.quote field)), ("value", value)])
  fuzzyTerm field value options :=
    call "paradedb.fuzzy_term"
      (arguments " => " ([("field", text (Sql.quote field)), ("value", value)] ++ options))
  phrase := Paradedb.phrase
  range field range :=
    call "paradedb.range" (arguments " => " [("field", text (Sql.quote field)), ("range", range)])
  present field := call "paradedb.exists" (arguments " => " [("field", text (Sql.quote field))])
  boolean kind children :=
    call "paradedb.boolean" (arguments " => " [(kind, row "ARRAY[" "]" children)])
  boost factor query :=
    call "paradedb.boost" (arguments " => " [("factor", factor), ("query", query)])
  searchCall index query options :=
    call (index ++ ".search") (arguments " => " (("query", query) :: options))
  fuzzyOption := Paradedb.fuzzyOption

/-! ## Calls for people to read -/

namespace Shorthand

def literal : Literal → Writing
  | .string s => text (Sql.quote s)
  | .range s _ => text (Sql.quote s)
  | .boolean b => text (if b then "true" else "false")
  | .float x => text (String.ofList (Number.finiteText x))
  | .integer n => text (String.ofList (Number.intText n))
  | .textArray items => row "[" "]" (items.map fun item => text (Sql.quote item))

/-- The arguments of a leaf are written tight. -/
def leaf (function field : String) (named : List NamedWriting) : Writing :=
  call function (arguments "=>" (("field", text (Sql.quote field)) :: named))

def phrase (field : String) (phrases : Writing) (slop : Option Writing) : Writing :=
  match slop with
  | none => leaf "phrase" field [("phrases", phrases)]
  | some slop => leaf "phrase" field [("phrases", phrases), ("slop", slop)]

end Shorthand

def shorthand : Scribe where
  literal := Shorthand.literal
  placeholder number _ _ := text ("$" ++ String.ofList (Number.intText number))
  parse query := call "parse" [query]
  term field value := Shorthand.leaf "term" field [("value", value)]
  fuzzyTerm field value options := Shorthand.leaf "fuzzy_term" field (("value", value) :: options)
  phrase := Shorthand.phrase
  range field range := Shorthand.leaf "range" field [("range", range)]
  present field := Shorthand.leaf "exists" field []
  boolean kind children := call "boolean" (arguments " => " [(kind, row "[" "]" children)])
  boost factor query := call "boost" (arguments " => " [("factor", factor), ("query", query)])
  searchCall index query options :=
    call (index ++ ".search") (arguments " => " (("query", query) :: options))
  fuzzyOption := Argument.name

end Scribe

def Dialect.scribe : Dialect → Scribe
  | .paradedb => .paradedb
  | .shorthand => .shorthand

namespace Scribe

open Writing (deeper)

/-! ## What the emitter provides -/

/-- Has a value written, or binds it and has its placeholder written; truth values are never bound. -/
def value (v : Value) (argument : Option Argument) : Writing := fun e =>
  let scribe := e.settings.dialect.scribe
  match v.encode with
  | .error x => (e, .error (.literal x))
  | .ok literal =>
    if e.settings.parameterize && literal.kind != .boolean then
      let parameters := e.parameters ++ [literal.value]
      scribe.placeholder (e.base + parameters.length) literal argument { e with parameters }
    else scribe.literal literal e

/-- The optional arguments of a fuzzy term that are given. -/
def fuzzyOptions (scribe : Scribe) (options : FuzzyOptions) : List NamedWriting :=
  let given : List (Argument × Option Value) :=
    [(.distance, options.distance.map fun d => .int d.val),
      (.transposeCostOne, options.transposeCostOne.map .bool),
      (.prefixMatch, options.prefixMatch.map .bool)]
  given.filterMap fun (option, v?) =>
    v?.map fun v => (scribe.fuzzyOption option, value v (some option))

mutual

/-- Has a predicate written, one level deeper than what it stands in. -/
def visit (scribe : Scribe) : Predicate Value → Writing
  | .parse query => deeper (scribe.parse (value (.text query) none))
  | .term field v => deeper (scribe.term field (value v none))
  | .fuzzy field v options =>
    deeper (scribe.fuzzyTerm field (value (.text v) none) (scribe.fuzzyOptions options))
  | .phrase field phrases slop =>
    deeper (scribe.phrase field (value (.list phrases) none)
      (slop.map fun n => value (.int n) (some .slop)))
  | .range field range => deeper (scribe.range field (value (.range range) none))
  | .present field => deeper (scribe.present field)
  | .boolean kind first rest =>
    deeper (scribe.boolean kind.name (visit scribe first :: visits scribe rest))
  | .boost query factor =>
    deeper (scribe.boost (value (.real (.finite factor.value)) (some .factor))
      (visit scribe query))
  | .foreign typeName => deeper (.fail (.unsupported typeName))

def visits (scribe : Scribe) : List (Predicate Value) → List Writing
  | [] => []
  | p :: ps => visit scribe p :: visits scribe ps

end

/-- The options of a search call in their order. -/
def searchOptions (options : Table SearchOption Value) : List NamedWriting :=
  SearchOption.all.filterMap fun o =>
    (options.get? o).map fun v => (o.name, value v (some (.option o)))

end Scribe

/-- The call for a finalized search, written by the scribe of the dialect. -/
def Emitter.dictate (e : Emitter) (tree : SearchTree) (first : Int) :
    Emitter × Except EmissionError Expression :=
  let scribe := e.settings.dialect.scribe
  let writing := Writing.all
    [scribe.searchCall tree.binding.index.name (scribe.visit tree.root)
      (Scribe.searchOptions tree.options), .checkLimits]
  match writing (e.begin first) with
  | (e, .error x) => (e, .error x)
  | (e, .ok ()) =>
    (e, .ok ⟨tree.binding.aliasName, tree.binding.relation, tree.binding.index.name, e.text,
      e.parameters⟩)

end SearchSql
