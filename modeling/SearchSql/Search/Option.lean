import SearchSql.Value.Shown

/-!
# Search options

The options of a search call as a whole: how many rows it gives, how many it skips, and whether
rows of one score keep their order.
-/

namespace SearchSql

inductive SearchOption where
  | limitRows
  | offsetRows
  | stableSort
  deriving DecidableEq, Repr

/-- What is wrong with an option. -/
inductive OptionError where
  | unknown (shown : String)
  | flag (given : Value)
  | rowCount (option : SearchOption) (given : Value)

namespace SearchOption

def name : SearchOption → String
  | .limitRows => "limit_rows"
  | .offsetRows => "offset_rows"
  | .stableSort => "stable_sort"

/-- All options in the order in which a call lists them. -/
def all : List SearchOption := [.limitRows, .offsetRows, .stableSort]

def ofName? (s : String) : Option SearchOption := all.find? (·.name = s)

/-- A number of rows is a natural number, and the stability of the order a truth value. -/
def accepts : SearchOption → Value → Bool
  | .stableSort, .bool _ => true
  | .limitRows, .int (.ofNat _) => true
  | .offsetRows, .int (.ofNat _) => true
  | _, _ => false

/-- The option that a value names. -/
def ofValue? : Value → Option SearchOption
  | .text name => ofName? name
  | _ => none

/-- Checks an option that is given by its name. -/
def check (name value : Value) : Except OptionError SearchOption :=
  match ofValue? name with
  | none => .error (.unknown name.shown)
  | some option =>
    if option.accepts value then .ok option
    else match option with
      | .stableSort => .error (.flag value)
      | option => .error (.rowCount option value)

end SearchOption

def OptionError.report : OptionError → Report
  | .unknown shown =>
    .make .invalidOption "invalid search option"
      s!"unknown search option {shown}; expected one of limit_rows, offset_rows, stable_sort"
  | .flag given =>
    .make .invalidOption "invalid search option"
      s!"stable_sort must be a boolean, got {given.shown}"
  | .rowCount option given =>
    .make .invalidOption "invalid search option"
      s!"{option.name} must be a non-negative integer, got {given.shown}"

end SearchSql
