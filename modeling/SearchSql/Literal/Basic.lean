import SearchSql.Value.Access

/-!
# Literals

The values that can be bound as a parameter of a query or written into it, with the type the
database reads them as.
-/

namespace SearchSql

inductive LiteralKind where
  | string
  | integer
  | float
  | boolean
  | range
  | textArray
  deriving DecidableEq, Repr

namespace LiteralKind

def name : LiteralKind → String
  | .string => "string"
  | .integer => "integer"
  | .float => "float"
  | .boolean => "boolean"
  | .range => "range"
  | .textArray => "text_array"

def all : List LiteralKind := [.string, .integer, .float, .boolean, .range, .textArray]

def ofName? (s : String) : Option LiteralKind := all.find? (·.name = s)

end LiteralKind

/-- A literal. A range is kept as its written form. -/
inductive Literal where
  | string (s : String)
  | integer (n : Int)
  | float (x : Finite64)
  | boolean (b : Bool)
  | range (text : String) (type : RangeType)
  | textArray (items : List String)
  deriving DecidableEq

/-- Why a value is no literal. -/
inductive LiteralError where
  | nullByte (context shown : String)
  | nonFinite (x : Binary64)
  | item (typeName : String)
  | noEncoding (typeName : String)
  deriving DecidableEq, Repr

def nul : Char := Char.ofNat 0

/-- Refuses a text with a null byte. -/
def checkNoNul (context s : String) : Except LiteralError Unit :=
  if nul ∈ s.toList then .error (.nullByte context (Text.quoted s)) else .ok ()

/-- What texts with null bytes are called, where nothing else is said. -/
def literalContext : String := "string literals"

namespace Literal

def kind : Literal → LiteralKind
  | .string _ => .string
  | .integer _ => .integer
  | .float _ => .float
  | .boolean _ => .boolean
  | .range _ _ => .range
  | .textArray _ => .textArray

/-- The value that is bound as the parameter. -/
def value : Literal → Value
  | .string s => .text s
  | .integer n => .int n
  | .float x => .real (.finite x)
  | .boolean b => .bool b
  | .range s _ => .text s
  | .textArray ss => .list (ss.map .text)

/-- The type the database reads the parameter as. -/
def sqlType : Literal → String
  | .string _ => "text"
  | .integer _ => "bigint"
  | .float _ => "double precision"
  | .boolean _ => "boolean"
  | .range _ t => t.name
  | .textArray _ => "text[]"

end Literal

/-- The items of a list as texts, or the first fault among them. -/
def textItems : List Value → Except LiteralError (List String)
  | [] => .ok []
  | .text s :: rest => do
    checkNoNul literalContext s
    return s :: (← textItems rest)
  | v :: _ => .error (.item v.typeName)

/-- The literal that a value is: a text, a number, a truth value, a range or a list of texts. -/
def Value.encode : Value → Except LiteralError Literal
  | .bool b => .ok (.boolean b)
  | .text s => do
    checkNoNul literalContext s
    return .string s
  | .int n => .ok (.integer n)
  | .real (.finite x) => .ok (.float x)
  | .real x => .error (.nonFinite x)
  | .range r => .ok (.range r.plain.text r.type)
  | .list vs => (textItems vs).map .textArray
  | .tuple vs => (textItems vs).map .textArray
  | v => .error (.noEncoding v.typeName)

def LiteralError.report : LiteralError → Report
  | .nullByte context shown =>
    .make .unsupportedType s!"{context} cannot contain null bytes"
      s!"null byte found in {context}: {shown}"
  | .nonFinite x =>
    let shown := (Value.real x).shown
    .make .unsupportedType "unsupported type" s!"non-finite float {shown} cannot be encoded"
  | .item typeName =>
    .make .unsupportedType "unsupported type" s!"list elements must be strings, got {typeName}"
  | .noEncoding typeName =>
    .make .unsupportedType "unsupported type" s!"no encoding for values of type {typeName}"

/-! ## Null bytes in any value -/

inductive NullByteError where
  | misuse (m : Misuse)
  | literal (e : LiteralError)
  deriving DecidableEq, Repr

namespace Value

/-- Refuses a value that contains a null byte, and one that can contain nothing. -/
def checkNoNul (context : String) (v : Value) : Except NullByteError Unit :=
  match v.containsChar nul with
  | .ok found => if found then .error (.literal (.nullByte context v.shown)) else .ok ()
  | .error m => .error (.misuse m)

theorem checkNoNul_text (context s : String) :
    (Value.text s).checkNoNul context = (SearchSql.checkNoNul context s).mapError .literal := by
  simp only [checkNoNul, SearchSql.checkNoNul, containsChar, shown_text, List.contains_iff_mem]
  split <;> rfl

end Value

def NullByteError.report : NullByteError → Report
  | .misuse m => m.report
  | .literal e => e.report

end SearchSql
