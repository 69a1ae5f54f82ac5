import SearchSql.Misuse
import SearchSql.Range.Reading
import SearchSql.Value.Shown

/-!
# Access to values

What can be asked of a value only if it is of a fitting type: which member of a set of names it
is, what its items are, whether it contains a character, and as what it can take part in a range.
-/

namespace SearchSql

/-- Takes a member of a set of names from a value that should be one of the names. -/
def member {α : Type} (set : NameSet) (ofName? : String → Option α) (v : Value) :
    Except Misuse α :=
  match v with
  | .text s => match ofName? s with
    | some a => .ok a
    | none => .error (.notMember v.shown set)
  | v => .error (.notMember v.shown set)

namespace Value

/-- The items of a value, if it can be gone through. -/
def requireItems (v : Value) : Except Misuse (List Value) :=
  match v.items? with
  | some items => .ok items
  | none => .error (.noItems v.fullTypeName)

/-- Whether the value is this very text. -/
def isText (s : String) : Value → Bool
  | .text t => t == s
  | _ => false

/-- Whether a character occurs in a text, or makes up an item of a row or a key of a mapping. -/
def containsChar (v : Value) (c : Char) : Except Misuse Bool :=
  match v with
  | .text s => .ok (s.toList.contains c)
  | .bytes _ => .error .textInBytes
  | v => match v.items? with
    | some items => .ok (items.any (·.isText (String.singleton c)))
    | none => .error (.noContents v.fullTypeName)

end Value

/-! ## Ranges from values -/

/-- The type that a value asks for. -/
def TypeRequest.ofValue : Value → TypeRequest
  | .null => .inferred
  | .text s => match RangeType.ofName? s with
    | some t => .named t
    | none => .unknown (Text.quoted s)
  | v => .unknown v.shown

namespace SearchRange

/-- The range with flags as they are given; that of an open side is false. -/
def withFlags (r : SearchRange Bool) (lowerInclusive upperInclusive : Value) :
    SearchRange Value :=
  ⟨r.lower, r.upper, if r.lower.isSome then lowerInclusive else .bool false,
    if r.upper.isSome then upperInclusive else .bool false, r.type⟩

/-- The range that is asked for. Any value may be a flag, and counts by its truth. -/
def ofValues (lower upper lowerInclusive upperInclusive type : Value) :
    Except RangeError (SearchRange Value) :=
  (SearchRange.build lower.toBoundOffer upper.toBoundOffer lowerInclusive.isTrue
    upperInclusive.isTrue (.ofValue type)).map (·.withFlags lowerInclusive upperInclusive)

end SearchRange

end SearchSql
