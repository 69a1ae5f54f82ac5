import SearchSql.Number.Printing
import SearchSql.Calendar.Moment
import SearchSql.Report

/-!
# Ranges

A range of numbers, days or moments with an optional bound on either side. `SearchRange.build`
settles every way of asking for one: it drops infinite bounds, makes open sides exclusive, finds
the type that holds both bounds and refuses a lower bound above the upper one.
-/

namespace SearchSql

/-- The range types of the database. -/
inductive RangeType where
  | int8
  | numeric
  | date
  | timestamptz
  deriving DecidableEq, Repr

namespace RangeType

def name : RangeType → String
  | .int8 => "int8range"
  | .numeric => "numrange"
  | .date => "daterange"
  | .timestamptz => "tstzrange"

def all : List RangeType := [.int8, .numeric, .date, .timestamptz]

def ofName? (s : String) : Option RangeType := all.find? (·.name = s)

/-- The form in which messages show a range type. -/
def shown : RangeType → String
  | .int8 => "<RangeSubtype.INT8: 'int8range'>"
  | .numeric => "<RangeSubtype.NUMERIC: 'numrange'>"
  | .date => "<RangeSubtype.DATE: 'daterange'>"
  | .timestamptz => "<RangeSubtype.TIMESTAMPTZ: 'tstzrange'>"

end RangeType

/-- A bound of a range. -/
inductive Bound where
  | number (n : Number)
  | date (d : Date)
  | moment (m : Moment)
  deriving DecidableEq

namespace Bound

/-- The narrowest type that holds the bound. -/
def type : Bound → RangeType
  | .number (.int _) => .int8
  | .number (.real _) => .numeric
  | .date _ => .date
  | .moment _ => .timestamptz

/-- Whether the first bound lies above the second. Bounds that cannot be put in order do not
exceed each other. -/
def exceeds : Bound → Bound → Bool
  | .number a, .number b => b.exact < a.exact
  | .date a, .date b => b.ordinal < a.ordinal
  | .moment a, .moment b => a.exceeds b
  | _, _ => false

def text : Bound → List Char
  | .number n => n.text
  | .date d => d.text
  | .moment m => m.text

/-- The form in which messages show a bound. -/
def shown : Bound → String
  | .number n => String.ofList n.text
  | .date d => d.shown
  | .moment m => m.shown

end Bound

/-- Something offered as a bound. -/
inductive BoundOffer where
  | number (n : Number)
  | infinite
  | nan
  | date (d : Date)
  | moment (m : Moment)
  | bool (b : Bool)
  | other (typeName : String)
  deriving DecidableEq

/-- The type asked for in a request for a range: none, a type, or something that is none. -/
inductive TypeRequest where
  | inferred
  | named (t : RangeType)
  | unknown (shown : String)
  deriving DecidableEq

inductive Side where
  | lower
  | upper
  deriving DecidableEq, Repr

def Side.name : Side → String
  | .lower => "lower"
  | .upper => "upper"

/-- What is wrong with a range. -/
inductive RangeError where
  | unreadable (shown : String)
  | badBound (text : String) (type : RangeType)
  | nanBound (side : Side)
  | boolBound (b : Bool)
  | unsupportedBound (typeName : String)
  | mixed (lower upper : RangeType)
  | unknownType (shown : String)
  | inverted (lower upper : Bound)
  deriving DecidableEq

def BoundOffer.ofBinary64 : Binary64 → BoundOffer
  | .finite x => .number (.real x)
  | .infinite _ => .infinite
  | .nan => .nan

/-- The bound that an offer stands for; an infinite one is none. -/
def BoundOffer.settle : Option BoundOffer → Except RangeError (Option Bound)
  | none | some .infinite => .ok none
  | some (.number n) => .ok (some (.number n))
  | some (.date d) => .ok (some (.date d))
  | some (.moment m) => .ok (some (.moment m))
  | some (.bool b) => .error (.boolBound b)
  | some (.other typeName) => .error (.unsupportedBound typeName)
  | some .nan => .error (.unsupportedBound "float")

/-- The type that holds both bounds. Whole numbers are numeric, too; no other types mix. -/
def RangeType.unify (lower upper : Option Bound) : Except RangeError RangeType :=
  match lower.map Bound.type, upper.map Bound.type with
  | none, none => .ok .int8
  | some t, none | none, some t => .ok t
  | some .int8, some .numeric | some .numeric, some .int8 => .ok .numeric
  | some t, some u => if t = u then .ok t else .error (.mixed t u)

/-- A range, whose flags are truth values or values that are taken for such. An open side is
exclusive. -/
structure SearchRange (φ : Type) where
  lower : Option Bound
  upper : Option Bound
  lowerInclusive : φ
  upperInclusive : φ
  type : RangeType
  deriving DecidableEq

namespace SearchRange

/-- The range with other values for its flags. -/
def map {φ ψ : Type} (f : φ → ψ) (r : SearchRange φ) : SearchRange ψ :=
  ⟨r.lower, r.upper, f r.lowerInclusive, f r.upperInclusive, r.type⟩

/-- Whether both bounds are present and the lower one lies above the upper. -/
def inverted? : Option Bound → Option Bound → Option (Bound × Bound)
  | some l, some u => if l.exceeds u then some (l, u) else none
  | _, _ => none

/-- The range that is asked for, or the first of its faults: an undefined bound on either side, a
bound of no use on either side, bounds that do not mix, an unknown type, bounds in the wrong
order. -/
def build (lower upper : Option BoundOffer) (lowerInclusive upperInclusive : Bool)
    (request : TypeRequest) : Except RangeError (SearchRange Bool) := do
  if lower = some .nan then throw (.nanBound .lower)
  if upper = some .nan then throw (.nanBound .upper)
  let l ← BoundOffer.settle lower
  let u ← BoundOffer.settle upper
  let inferred ← RangeType.unify l u
  let type ← match request with
    | .inferred => pure inferred
    | .named t => pure t
    | .unknown shown => throw (.unknownType shown)
  match inverted? l u with
  | some (a, b) => throw (.inverted a b)
  | none => return ⟨l, u, l.isSome && lowerInclusive, u.isSome && upperInclusive, type⟩

def boundText : Option Bound → List Char
  | none => []
  | some b => b.text

/-- The written form of a range. -/
def literal (r : SearchRange Bool) : List Char :=
  (if r.lowerInclusive then '[' else '(') :: boundText r.lower ++
    ',' :: boundText r.upper ++ [if r.upperInclusive then ']' else ')']

def text (r : SearchRange Bool) : String := String.ofList r.literal

end SearchRange

end SearchSql
