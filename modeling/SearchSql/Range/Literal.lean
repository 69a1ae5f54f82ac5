import SearchSql.Text.Character
import SearchSql.Text.Quoted

/-!
# Range literals

The written form of a range such as `[3,)` or `("2024-01-01",2024-02-01]`, split into its brackets
and the texts of its bounds.
-/

namespace SearchSql

/-- A range literal taken apart. A side without a bound is open-ended. -/
structure RangeText where
  lowerInclusive : Bool
  lower : Option String
  upper : Option String
  upperInclusive : Bool
  deriving DecidableEq, Repr

namespace RangeText

/-- The blanks that may stand between the parts of a literal. -/
def isGap (c : Char) : Bool := c = ' ' || c = '\t' || c = '\x0c' || c = '\r' || c = '\n'

/-- The characters of a bound without quotes. -/
def isBare (c : Char) : Bool :=
  !(c = ',' || c = '[' || c = ']' || c = '(' || c = ')' || c = Text.quotationMark ||
    Text.isBlank c)

def skipGap (s : List Char) : List Char := s.dropWhile isGap

/-- Parts a text from behind a quotation mark at the one that closes it: the first that has an even
number of backslashes right before it. A line feed may not come before. Whether the number is odd is
kept on the way. -/
def closeQuoted? (odd : Bool) : List Char → Option (List Char × List Char)
  | [] => none
  | c :: rest =>
    if c = '\n' then none
    else if c = Text.quotationMark && ! odd then some ([], rest)
    else (closeQuoted? (c = '\\' && ! odd) rest).map fun (body, rest) => (c :: body, rest)

/-- The text with another character for each occurrence of a pair, from left to right. -/
def replacePair (first second replacement : Char) : List Char → List Char
  | c :: d :: rest =>
    if c = first ∧ d = second then replacement :: replacePair first second replacement rest
    else c :: replacePair first second replacement (d :: rest)
  | s => s

/-- What the body of a quoted bound stands for. The backslashes before quotation marks are dropped
first, then one of every two that follow each other. -/
def unescape (body : List Char) : List Char :=
  replacePair '\\' '\\' '\\' (replacePair '\\' Text.quotationMark Text.quotationMark body)

/-- Reads a bound, if there is one. -/
def readBound? (s : List Char) : Option (Option String × List Char) :=
  match s with
  | '\x22' :: rest =>
    (closeQuoted? false rest).map fun (body, rest) => (some (String.ofList (unescape body)), rest)
  | s =>
    let bare := s.takeWhile isBare
    some (if bare.isEmpty then none else some (String.ofList bare), s.dropWhile isBare)

/-- Reads one of two brackets and says whether it was the first. -/
def readBracket? (inclusive exclusive : Char) : List Char → Option (Bool × List Char)
  | [] => none
  | c :: rest =>
    if c = inclusive then some (true, rest)
    else if c = exclusive then some (false, rest)
    else none

def readComma? : List Char → Option (List Char)
  | ',' :: rest => some rest
  | _ => none

/-- Reads a range literal; blanks around it are ignored. -/
def read? (text : String) : Option RangeText := do
  let (lowerInclusive, s) ← readBracket? '[' '(' (Text.trim text.toList)
  let (lower, s) ← readBound? (skipGap s)
  let s ← readComma? (skipGap s)
  let (upper, s) ← readBound? (skipGap s)
  let (upperInclusive, s) ← readBracket? ']' ')' (skipGap s)
  if s.isEmpty then some ⟨lowerInclusive, lower, upper, upperInclusive⟩ else none

end RangeText

end SearchSql
