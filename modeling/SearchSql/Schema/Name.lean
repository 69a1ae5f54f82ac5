import SearchSql.Report

/-!
# Names

Fields, relations, indexes and aliases are written into SQL without quotes, so their names are
checked: a name is an ASCII identifier of at most 63 characters that is no keyword, and a relation
may be qualified by one schema.
-/

namespace SearchSql

/-- What is wrong with a name. -/
inductive NameError where
  | empty
  | tooLong (name : String)
  | malformed (name : String)
  | reserved (name : String)
  | overQualified (name : String)
  deriving DecidableEq, Repr

namespace Name

/-- The longest name, in characters. -/
def maxLength : Nat := 63

def keywords : List String :=
  ["all", "alter", "and", "any", "array", "as", "asc", "between", "by", "case", "cast", "check",
   "column", "constraint", "create", "cross", "current", "current_date", "current_time",
   "current_timestamp", "current_user", "default", "delete", "desc", "distinct", "drop", "else",
   "end", "except", "exists", "false", "for", "foreign", "from", "full", "grant", "group",
   "having", "in", "index", "inner", "insert", "intersect", "into", "is", "join", "left", "like",
   "limit", "not", "null", "offset", "on", "or", "order", "outer", "primary", "references",
   "right", "select", "session_user", "set", "some", "table", "then", "to", "true", "union",
   "unique", "update", "user", "using", "values", "when", "where", "with"]

def isStart (c : Char) : Bool := c.isAlpha || c = '_'

def isPart (c : Char) : Bool := c.isAlphanum || c = '_'

/-- The text without one line feed at its end. -/
def dropFinalLineFeed (s : List Char) : List Char :=
  if s.getLast? = some '\n' then s.dropLast else s

/-- A letter or underscore, then letters, digits and underscores. One line feed at the very end
is let through. -/
def isIdentifier : List Char → Bool
  | [] => false
  | c :: rest => isStart c && (dropFinalLineFeed rest).all isPart

/-- Keywords are recognised in letters of either case. -/
def isKeyword (name : String) : Bool :=
  keywords.contains (String.ofList (name.toList.map Char.toLower))

/-- Checks the name of a field or an alias. -/
def check (name : String) : Except NameError Unit :=
  if name.isEmpty then .error .empty
  else if maxLength < name.length then .error (.tooLong name)
  else if ! isIdentifier name.toList then .error (.malformed name)
  else if isKeyword name then .error (.reserved name)
  else .ok ()

/-- The parts of a name between its dots. -/
def parts : List Char → List (List Char)
  | [] => [[]]
  | c :: rest =>
    if c = '.' then [] :: parts rest
    else match parts rest with
      | p :: ps => (c :: p) :: ps
      | [] => [[c]]

/-- The part of a name after its last dot. -/
def lastPart (name : String) : String :=
  String.ofList ((parts name.toList).getLast?.getD [])

/-- Checks the name of a relation or an index, which may have one schema in front. -/
def checkRelation (name : String) : Except NameError Unit :=
  let names := parts name.toList
  if 2 < names.length then .error (.overQualified name)
  else names.forM fun part => check (String.ofList part)

end Name

namespace NameError

def report : NameError → Report
  | .empty => .make .invalidName "field name cannot be empty" "empty field name provided"
  | .tooLong name =>
    .make .invalidName "field name too long" s!"field name '{name}' exceeds 63 characters"
  | .malformed name =>
    .make .invalidName "invalid field name format"
      s!"field name '{name}' contains invalid characters"
  | .reserved name =>
    .make .invalidName "field name is a reserved SQL keyword"
      s!"field name '{name}' is a reserved SQL keyword"
  | .overQualified name =>
    .make .invalidName "invalid relation name format"
      s!"relation name '{name}' has more than one schema qualifier"

end NameError

end SearchSql
