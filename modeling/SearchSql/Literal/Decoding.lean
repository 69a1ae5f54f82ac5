import SearchSql.Literal.Basic

/-!
# Decoding literals

The value that a literal was made from, found from its kind, its parameter and its type.
-/

namespace SearchSql

inductive DecodingError where
  | misuse (m : Misuse)
  | range (e : RangeError)
  deriving DecidableEq

/-- Splits a value that is a range literal. It is trimmed before it is read, so a value that has no
ends to trim fails there, and blank bytes are unreadable like a blank text. -/
def RangeText.ofValue (v : Value) : Except DecodingError RangeText :=
  match v with
  | .text s => match RangeText.read? s with
    | some t => .ok t
    | none => .error (.range (.unreadable v.shown))
  | .bytes bs =>
    if bs.all isBlankByte then .error (.range (.unreadable v.shown))
    else .error (.misuse .bytesForText)
  | v => .error (.misuse (.noEnds v.fullTypeName))
where
  isBlankByte (b : UInt8) : Bool := b == 0x20 || 0x09 ≤ b && b ≤ 0x0d

/-- Reads a value as a range literal. For a text it is `SearchRange.read`. -/
def SearchRange.ofLiteral (v : Value) (request : TypeRequest) :
    Except DecodingError (SearchRange Bool) := do
  ((← RangeText.ofValue v).resolve request).mapError .range

theorem SearchRange.ofLiteral_text (s : String) (request : TypeRequest) :
    SearchRange.ofLiteral (.text s) request = (SearchRange.read s request).mapError .range := by
  simp only [SearchRange.ofLiteral, SearchRange.read, RangeText.ofValue, Value.shown_text]
  cases RangeText.read? s <;> rfl

/-- The kind that a value names. -/
def LiteralKind.ofValue : Value → Except Misuse LiteralKind := member .literalKind ofName?

/-- Decodes a parameter of a kind. A range is read from its text as its type says, a list of texts
is gone through, and any other parameter is the value itself. -/
def LiteralKind.decode (kind : LiteralKind) (parameter sqlType : Value) :
    Except DecodingError Value := do
  match kind with
  | .range =>
    let type ← (member .rangeType RangeType.ofName? sqlType).mapError .misuse
    return .ofRange (← SearchRange.ofLiteral parameter (.named type))
  | .textArray => return .list (← parameter.requireItems.mapError .misuse)
  | _ => return parameter

def Literal.decode (l : Literal) : Except DecodingError Value :=
  l.kind.decode l.value (.text l.sqlType)

def DecodingError.report : DecodingError → Report
  | .misuse m => m.report
  | .range e => e.report

end SearchSql
