import SearchSql.Literal.Basic
import SearchSql.Misuse
import SearchSql.Search.Option

/-!
# Dialects

A search call can be written as SQL that the database executes, or in a shorthand for people to
read. The two differ in a few spellings only, which a style gathers. In both, a string stands
between apostrophes, and an apostrophe inside it is written twice.
-/

namespace SearchSql

namespace Sql

/-- The text with every apostrophe written twice. -/
def escape : List Char → List Char
  | [] => []
  | c :: rest =>
    if c = Text.apostrophe then c :: c :: escape rest else c :: escape rest

/-- The string literal for a text. -/
def quote (s : String) : String :=
  String.ofList (Text.apostrophe :: (escape s.toList ++ [Text.apostrophe]))

end Sql

inductive Dialect where
  | paradedb
  | shorthand
  deriving DecidableEq, Repr

/-- The optional arguments of calls, and the factor of a boost, whose values may be of a declared
type. -/
inductive Argument where
  | option (o : SearchOption)
  | distance
  | transposeCostOne
  | prefixMatch
  | slop
  | factor
  deriving DecidableEq, Repr

/-- The spellings of a dialect. -/
structure Style where
  namespaceText : String
  leafArrow : String
  arrayOpen : String
  arrayClose : String
  textArrayClose : String
  transposeCostOne : String
  showsTypes : Bool
  deriving DecidableEq, Repr

namespace Dialect

def name : Dialect → String
  | .paradedb => "paradedb"
  | .shorthand => "shorthand"

def all : List Dialect := [.paradedb, .shorthand]

def ofName? (s : String) : Option Dialect := all.find? (·.name = s)

/-- The dialect that a value names. -/
def ofValue (v : Value) : Except Misuse Dialect :=
  match v with
  | .text s => match ofName? s with
    | some dialect => .ok dialect
    | none => .error (.unknownDialect v.shown)
  | v => .error (.unknownDialect v.shown)

def style : Dialect → Style
  | .paradedb => ⟨"paradedb.", " => ", "ARRAY[", "]", "]::text[]", "transposition_cost_one", true⟩
  | .shorthand => ⟨"", "=>", "[", "]", "]", "transpose_cost_one", false⟩

end Dialect

/-- The type that the called function declares for an argument. -/
def Argument.declaredType? : Argument → Option String
  | .option .limitRows => some "integer"
  | .option .offsetRows => some "integer"
  | .distance => some "integer"
  | .slop => some "integer"
  | .factor => some "real"
  | _ => none

namespace Style

def argumentName (style : Style) : Argument → String
  | .option o => o.name
  | .distance => "distance"
  | .transposeCostOne => style.transposeCostOne
  | .prefixMatch => "prefix"
  | .slop => "slop"
  | .factor => "factor"

/-- A literal written into the call. -/
def literalText (style : Style) : Literal → String
  | .string s => Sql.quote s
  | .integer n => String.ofList (Number.intText n)
  | .float x => String.ofList (Number.finiteText x)
  | .boolean b => if b then "true" else "false"
  | .range s t => if style.showsTypes then Sql.quote s ++ "::" ++ t.name else Sql.quote s
  | .textArray ss =>
    style.arrayOpen ++ String.intercalate ", " (ss.map Sql.quote) ++ style.textArrayClose

/-- The placeholder for a parameter. Where types are shown, it is cast to the type that is declared
for the argument, or else to the type of the literal. -/
def placeholder (style : Style) (number : Int) (argument : Option Argument) (literal : Literal) :
    String :=
  let type := (argument.bind Argument.declaredType?).getD literal.sqlType
  "$" ++ String.ofList (Number.intText number) ++ if style.showsTypes then "::" ++ type else ""

end Style

end SearchSql
