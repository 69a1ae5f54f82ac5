import SearchSql.Text.Quoted
import SearchSql.Value.Basic

/-!
# How values are shown

The form in which messages show a value, so that its type can be seen.
-/

namespace SearchSql

def shownBool (b : Bool) : String := if b then "True" else "False"

def shownOption {α : Type} (shown : α → String) : Option α → String
  | none => "None"
  | some a => shown a

def Number.shown (n : Number) : String := String.ofList n.text

def Kind.shown : Kind → String
  | .must => "<BooleanKind.MUST: 'must'>"
  | .should => "<BooleanKind.SHOULD: 'should'>"
  | .mustNot => "<BooleanKind.MUST_NOT: 'must_not'>"

def SearchField.shown (f : SearchField) : String :=
  let name := Text.quoted f.name
  let index := Text.quoted f.indexName
  s!"SearchField(name={name}, index_name={index})"

/-- A row of shown items between brackets; a row of one that is marked so has a comma behind
it. -/
def shownRow (opening closing : String) (single : Bool) (items : List String) : String :=
  let comma := if single && items.length == 1 then "," else ""
  opening ++ String.intercalate ", " items ++ comma ++ closing

mutual

def shownValue : Value → String
  | .null => "None"
  | .bool b => shownBool b
  | .int n => String.ofList (Number.intText n)
  | .real x => String.ofList (Number.binary64Text x)
  | .text s => Text.quoted s
  | .list items => shownRow "[" "]" false (shownValues items)
  | .tuple items => shownRow "(" ")" true (shownValues items)
  | .bytes bytes => Text.quotedBytes bytes
  | .mapping entries => shownRow "\x7b" "\x7d" false (shownEntries entries)
  | .date d => d.shown
  | .moment m => m.shown
  | .range r => shownRange r
  | .field f => f.shown
  | .predicate p => shownPredicate p

def shownValues : List Value → List String
  | [] => []
  | v :: vs => shownValue v :: shownValues vs

def shownEntries : List (String × Value) → List String
  | [] => []
  | (key, v) :: rest => (Text.quoted key ++ ": " ++ shownValue v) :: shownEntries rest

def shownRange : SearchRange Value → String
  | ⟨lower, upper, lowerInclusive, upperInclusive, type⟩ =>
    "SearchRange(lower=" ++ shownOption Bound.shown lower ++
      ", upper=" ++ shownOption Bound.shown upper ++
      ", lower_inclusive=" ++ shownValue lowerInclusive ++
      ", upper_inclusive=" ++ shownValue upperInclusive ++ ", subtype=" ++ type.shown ++ ")"

def shownPredicate : Predicate Value → String
  | .parse query => "Parse(query=" ++ Text.quoted query ++ ")"
  | .term field value => "Term(field=" ++ Text.quoted field ++ ", value=" ++ shownValue value ++ ")"
  | .fuzzy field value options =>
    "FuzzyTerm(field=" ++ Text.quoted field ++ ", value=" ++ Text.quoted value ++
      ", distance=" ++ shownOption (fun d => toString d.val) options.distance ++
      ", transpose_cost_one=" ++ shownOption shownBool options.transposeCostOne ++
      ", prefix=" ++ shownOption shownBool options.prefixMatch ++ ")"
  | .phrase field phrases slop =>
    "Phrase(field=" ++ Text.quoted field ++ ", phrases=" ++
      shownRow "(" ")" true (shownValues phrases) ++
      ", slop=" ++ shownOption toString slop ++ ")"
  | .range field range =>
    "Range(field=" ++ Text.quoted field ++ ", range=" ++ shownRange range ++ ")"
  | .present field => "Exists(field=" ++ Text.quoted field ++ ")"
  | .boolean kind first rest =>
    "Boolean(kind=" ++ kind.shown ++ ", children=" ++
      shownRow "(" ")" true (shownPredicate first :: shownPredicates rest) ++ ")"
  | .boost query factor =>
    "Boost(query=" ++ shownPredicate query ++ ", factor=" ++ factor.number.shown ++ ")"
  | .foreign typeName => typeName ++ "()"

def shownPredicates : List (Predicate Value) → List String
  | [] => []
  | p :: ps => shownPredicate p :: shownPredicates ps

end

def Value.shown (v : Value) : String := shownValue v

@[simp] theorem Value.shown_text (s : String) : (Value.text s).shown = Text.quoted s := by
  simp only [Value.shown, shownValue]

/-- The plain text of a value: a text stands for itself, a range for its literal and a time for
its written form. -/
def Value.display : Value → String
  | .text s => s
  | .range r => r.plain.text
  | .date d => String.ofList d.text
  | .moment m => String.ofList (m.textWith ' ')
  | v => v.shown

end SearchSql
