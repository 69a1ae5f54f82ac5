import SearchSql.Call.Emission

/-!
# Emitters

An emitter writes one search call after the other. While it writes, it keeps the text, the depth of
the predicate that it is at, the parameters bound so far and the number that their placeholders are
counted from. A call that fails is left as it is, and the next one is begun anew.
-/

namespace SearchSql

structure Emitter where
  settings : Settings
  text : String
  depth : Nat
  parameters : List Value
  base : Int

/-- A piece of writing. An emitter that fails in it keeps what it has written up to there. -/
abbrev Writing := Emitter → Emitter × Except EmissionError Unit

namespace Emitter

/-- An emitter that has written nothing yet. -/
def new (settings : Settings) : Emitter := ⟨settings, "", 0, [], 0⟩

/-- The emitter at the start of a call whose placeholders are numbered from `first` on. -/
def begin (e : Emitter) (first : Int) : Emitter :=
  { e with text := "", depth := 0, parameters := [], base := first - 1 }

def draft (e : Emitter) : Draft := ⟨e.text, e.parameters⟩

end Emitter

namespace Writing

/-- Does one after the other, up to the first that fails. -/
def all : List Writing → Writing
  | [], e => (e, .ok ())
  | w :: rest, e =>
    match w e with
    | (e, .ok ()) => all rest e
    | (e, .error x) => (e, .error x)

def text (s : String) : Writing := fun e => ({ e with text := e.text ++ s }, .ok ())

def fail (x : EmissionError) : Writing := fun e => (e, .error x)

def checkLimits : Writing := fun e => (e, e.draft.checkLimits e.settings e.depth)

/-- Writes a value, or binds it and writes its placeholder; truth values are always written. -/
def value (v : Value) (argument : Option Argument) : Writing := fun e =>
  match v.encode with
  | .error x => (e, .error (.literal x))
  | .ok literal =>
    let style := e.settings.dialect.style
    if e.settings.parameterize && literal.kind != .boolean then
      let parameters := e.parameters ++ [literal.value]
      let number := e.base + parameters.length
      ({ e with parameters, text := e.text ++ style.placeholder number argument literal }, .ok ())
    else ({ e with text := e.text ++ style.literalText literal }, .ok ())

/-- Goes one level deeper to write, and comes back whatever has become of it. -/
def deeper (w : Writing) : Writing := fun e =>
  let (e, result) := all [checkLimits, w] { e with depth := e.depth + 1 }
  ({ e with depth := e.depth - 1 }, result)

def commaSeparated : List Writing → List Writing
  | [] => []
  | [w] => [w]
  | w :: rest => w :: text ", " :: commaSeparated rest

/-- Items with commas between them and something around them. -/
def row (opening closing : String) (items : List Writing) : Writing :=
  all (text opening :: commaSeparated items ++ [text closing])

/-- An argument of a call with its name. -/
def named (name arrow : String) (w : Writing) : Writing := all [text (name ++ arrow), w]

/-- A call of a function. -/
def call (function : String) (arguments : List Writing) : Writing :=
  row (function ++ "(") ")" arguments

end Writing

namespace Style

open Writing (named call row deeper)

/-- Writes a call that looks at a field. -/
def writeLeaf (style : Style) (function field : String) (arguments : List (String × Writing)) :
    Writing :=
  call (style.namespaceText ++ function)
    (named "field" style.leafArrow (.text (Sql.quote field)) ::
      arguments.map fun (name, w) => named name style.leafArrow w)

/-- Writes an optional argument, if there is a value for it. -/
def writeOptional (style : Style) (argument : Argument) : Option Value → List (String × Writing)
  | none => []
  | some v => [(style.argumentName argument, .value v (some argument))]

/-- Writes the optional arguments of a fuzzy term. -/
def writeFuzzyArguments (style : Style) (options : FuzzyOptions) : List (String × Writing) :=
  style.writeOptional .distance (options.distance.map fun d => .int d.val) ++
    style.writeOptional .transposeCostOne (options.transposeCostOne.map .bool) ++
    style.writeOptional .prefixMatch (options.prefixMatch.map .bool)

mutual

/-- Writes a predicate, one level deeper than what it stands in. -/
def visit (style : Style) : Predicate Value → Writing
  | .parse query => deeper (call (style.namespaceText ++ "parse") [.value (.text query) none])
  | .term field value => deeper (style.writeLeaf "term" field [("value", .value value none)])
  | .fuzzy field value options =>
    deeper (style.writeLeaf "fuzzy_term" field
      (("value", .value (.text value) none) :: style.writeFuzzyArguments options))
  | .phrase field phrases slop =>
    deeper (style.writeLeaf "phrase" field
      (("phrases", .value (.list phrases) none) ::
        style.writeOptional .slop (slop.map fun n => .int n)))
  | .range field range =>
    deeper (style.writeLeaf "range" field [("range", .value (.range range) none)])
  | .present field => deeper (style.writeLeaf "exists" field [])
  | .boolean kind first rest =>
    deeper (call (style.namespaceText ++ "boolean")
      [named kind.name " => "
        (row style.arrayOpen style.arrayClose (visit style first :: visits style rest))])
  | .boost query factor =>
    deeper (call (style.namespaceText ++ "boost")
      [named "factor" " => " (.value (.real (.finite factor.value)) (some .factor)),
        named "query" " => " (visit style query)])
  | .foreign typeName => deeper (.fail (.unsupported typeName))

def visits (style : Style) : List (Predicate Value) → List Writing
  | [] => []
  | p :: ps => visit style p :: visits style ps

end

/-- Writes the options of a search call in their order. -/
def writeOptions (options : Table SearchOption Value) : List Writing :=
  SearchOption.all.filterMap fun o =>
    (options.get? o).map fun v => named o.name " => " (.value v (some (.option o)))

/-- Writes a search call. -/
def writeSearchCall (style : Style) (tree : SearchTree) : Writing :=
  call (tree.binding.index.name ++ ".search")
    (named "query" " => " (style.visit tree.root) :: writeOptions tree.options)

end Style

/-- The call for a finalized search, whose placeholders are numbered from `first` on. Whatever the
emitter has written before, it begins anew. -/
def Emitter.emit (e : Emitter) (tree : SearchTree) (first : Int) :
    Emitter × Except EmissionError Expression :=
  let writing := Writing.all [e.settings.dialect.style.writeSearchCall tree, .checkLimits]
  match writing (e.begin first) with
  | (e, .error x) => (e, .error x)
  | (e, .ok ()) =>
    (e, .ok ⟨tree.binding.aliasName, tree.binding.relation, tree.binding.index.name, e.text,
      e.parameters⟩)

end SearchSql
