import SearchSql.Range.Basic
import SearchSql.Range.Literal
import SearchSql.Calendar.Reading

/-!
# Reading ranges

From a range literal to a range: the type is the one asked for, or it is inferred from the look
of the bounds.
-/

namespace SearchSql

/-- Reads a bound as a value of a range type. -/
def BoundOffer.read? (type : RangeType) (s : List Char) : Option BoundOffer :=
  match type with
  | .int8 => (Number.readInt? s).map fun n => .number (.int n)
  | .numeric =>
    if Number.looksWhole s then (Number.readInt? s).map fun n => .number (.int n)
    else (Number.readBinary64? s).map BoundOffer.ofBinary64
  | .date => (Date.read? s).map .date
  | .timestamptz => (Moment.read? s).map .moment

namespace RangeText

def bounds (t : RangeText) : List (List Char) :=
  t.lower.toList.map String.toList ++ t.upper.toList.map String.toList

/-- The type that the bounds look like: whole numbers, numbers, or days of ten characters, and
otherwise moments. -/
def inferType (t : RangeText) : RangeType :=
  if t.bounds.all Number.looksWhole then .int8
  else if t.bounds.all fun s => (Number.readBinary64? s).isSome then .numeric
  else if t.bounds.all fun s => s.length = 10 then .date
  else .timestamptz

def readBoundAs (type : RangeType) : Option String → Except RangeError (Option BoundOffer)
  | none => .ok none
  | some s => match BoundOffer.read? type s.toList with
    | some offer => .ok (some offer)
    | none => .error (.badBound s type)

/-- The range whose bounds are read as values of the given type. -/
def toRange (t : RangeText) (type : RangeType) : Except RangeError (SearchRange Bool) := do
  let lower ← readBoundAs type t.lower
  let upper ← readBoundAs type t.upper
  SearchRange.build lower upper t.lowerInclusive t.upperInclusive (.named type)

/-- The range of the requested type. -/
def resolve (t : RangeText) : TypeRequest → Except RangeError (SearchRange Bool)
  | .inferred => t.toRange t.inferType
  | .named type => t.toRange type
  | .unknown shown => .error (.unknownType shown)

end RangeText

/-- Reads a range literal as a range of the requested type. -/
def SearchRange.read (text : String) (request : TypeRequest) :
    Except RangeError (SearchRange Bool) :=
  match RangeText.read? text with
  | some t => t.resolve request
  | none => .error (.unreadable (Text.quoted text))

namespace RangeError

def report : RangeError → Report
  | .unreadable shown =>
    (Report.make .invalidRange "invalid range literal"
      s!"cannot parse range literal {shown}: ").withCause .grammar
  | .badBound text type =>
    (Report.make .invalidRange "invalid range literal"
      s!"bound {Text.quoted text} is not a valid {type.name} value").withCause .value
  | .nanBound side => .make .unsupportedType "unsupported type" s!"NaN {side.name} range bound"
  | .boolBound true =>
    .make .unsupportedType "unsupported type" "boolean range bound True is not supported"
  | .boolBound false =>
    .make .unsupportedType "unsupported type" "boolean range bound False is not supported"
  | .unsupportedBound typeName =>
    .make .unsupportedType "unsupported type"
      s!"range bound of type {typeName} is not supported"
  | .mixed lower upper =>
    .make .unsupportedType "unsupported type"
      s!"range bounds mix {lower.name} and {upper.name}"
  | .unknownType shown =>
    (Report.make .unsupportedType "unsupported type"
      s!"unknown range subtype {shown}").withCause .value
  | .inverted lower upper =>
    .make .invalidRange "invalid range literal"
      s!"range lower bound {lower.shown} exceeds upper bound {upper.shown}"

end RangeError

end SearchSql
