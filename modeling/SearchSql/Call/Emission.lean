import SearchSql.Call.Script

/-!
# Emission

A script is played into the text of a search call. Values are written into it, or bound as
parameters and numbered from left to right; truth values are always written. The depth of the tree
and the length of the text are limited.
-/

namespace SearchSql

/-- How a call is emitted. -/
structure Settings where
  dialect : Dialect
  parameterize : Bool
  maxDepth : Int
  maxLength : Int
  deriving DecidableEq, Repr

/-- At most a hundred levels and fifty thousand characters. -/
def Settings.standard (dialect : Dialect) (parameterize : Bool) : Settings :=
  ⟨dialect, parameterize, 100, 50000⟩

inductive EmissionError where
  | depth (depth : Nat) (limit : Int)
  | length (limit : Int)
  | unsupported (typeName : String)
  | literal (e : LiteralError)
  deriving DecidableEq, Repr

/-- What is written so far, with the parameters in the order of their placeholders. -/
structure Draft where
  text : String
  parameters : List Value

/-- A search call that takes the place of a table. -/
structure Expression where
  aliasName : String
  relation : String
  indexName : String
  sql : String
  parameters : List Value

/-- The call with its alias, as it stands in a list of tables. -/
def Expression.fromItem (e : Expression) : String := e.sql ++ " AS " ++ e.aliasName

namespace Draft

def empty : Draft := ⟨"", []⟩

def write (draft : Draft) (s : String) : Draft := { draft with text := draft.text ++ s }

/-- Binds a value as a parameter and writes its placeholder. -/
def writeParameter (draft : Draft) (value : Value) (placeholder : String) : Draft :=
  ⟨draft.text ++ placeholder, draft.parameters ++ [value]⟩

/-- Checks the limits at a depth; that of the depth comes first. -/
def checkLimits (settings : Settings) (depth : Nat) (draft : Draft) :
    Except EmissionError Unit :=
  if settings.maxDepth < depth then .error (.depth depth settings.maxDepth)
  else if settings.maxLength < draft.text.length then .error (.length settings.maxLength)
  else .ok ()

/-- Writes a literal, or binds it as a parameter. -/
def fill (settings : Settings) (first : Int) (draft : Draft) (argument : Option Argument)
    (literal : Literal) : Draft :=
  let style := settings.dialect.style
  if settings.parameterize && literal.kind != .boolean then
    draft.writeParameter literal.value
      (style.placeholder (first + draft.parameters.length) argument literal)
  else draft.write (style.literalText literal)

/-- Takes one step of a script. -/
def play (settings : Settings) (first : Int) (draft : Draft) : Step → Except EmissionError Draft
  | .text s => .ok (draft.write s)
  | .enter depth => (draft.checkLimits settings depth).map fun _ => draft
  | .slot value argument =>
    match value.encode with
    | .ok literal => .ok (draft.fill settings first argument literal)
    | .error e => .error (.literal e)
  | .unsupported typeName => .error (.unsupported typeName)

end Draft

/-- Plays a whole script. -/
def Script.play (settings : Settings) (first : Int) (script : Script) :
    Except EmissionError Draft :=
  script.foldlM (Draft.play settings first) Draft.empty

/-- The call for a finalized search, whose placeholders are numbered from `first` on. -/
def SearchTree.emit (settings : Settings) (first : Int) (tree : SearchTree) :
    Except EmissionError Expression := do
  let draft ← (settings.dialect.style.searchCall tree).play settings first
  draft.checkLimits settings 0
  return ⟨tree.binding.aliasName, tree.binding.relation, tree.binding.index.name, draft.text,
    draft.parameters⟩

def EmissionError.report : EmissionError → Report
  | .depth d limit =>
    .make .depthExceeded "maximum recursion depth exceeded" s!"depth {d} exceeds limit {limit}"
  | .length limit =>
    .make .lengthExceeded "maximum SQL output length exceeded"
      s!"output length exceeds limit {limit}"
  | .unsupported typeName =>
    .make .unsupportedExpression "unsupported predicate type" s!"no serialization for {typeName}"
  | .literal e => e.report

end SearchSql
