import SearchSql.Number.Binary64
import SearchSql.Text.Character

/-!
# Reading numbers

The written forms of whole numbers and of doubles. Digits of every script count, a single
underscore may stand between two digits, and blanks around the number are ignored.
-/

namespace SearchSql.Number

/-- A decimal numeral: the digits read as a whole number, times a power of ten. -/
structure Decimal where
  negative : Bool
  digits : Nat
  exponent : Int
  deriving DecidableEq, Repr

namespace Decimal

/-- The nearest double. An exponent that leaves no doubt about the outcome is not multiplied
out. -/
def toBinary64 (d : Decimal) : Binary64 :=
  if d.digits = 0 then .finite (.zero d.negative)
  else if 400 < d.exponent then .infinite d.negative
  else if d.exponent < -(2000 + d.digits.log2 : Int) then .finite (.zero d.negative)
  else if 0 ≤ d.exponent then
    Finite64.ofRatio d.negative (d.digits * Nat.pow 10 d.exponent.toNat * Finite64.unitsPerOne) 1
  else
    Finite64.ofRatio d.negative (d.digits * Finite64.unitsPerOne) (Nat.pow 10 (-d.exponent).toNat)

end Decimal

/-- Digits of every script written as those of ASCII. -/
def plainDigits (s : List Char) : List Char :=
  s.map fun c => match Text.digitValue? c with
    | some d => d.digitChar
    | none => c

/-- The text without its underscores, each of which must stand between two digits. -/
def ungroup (s : List Char) : Option (List Char) :=
  go false s
where
  go (afterDigit : Bool) : List Char → Option (List Char)
    | [] => some []
    | '_' :: c :: rest =>
      if afterDigit && c.isDigit then (go true rest).map (c :: ·) else none
    | ['_'] => none
    | c :: rest => (go c.isDigit rest).map (c :: ·)

/-- A leading sign and what follows it. -/
def splitSign : List Char → Bool × List Char
  | '-' :: rest => (true, rest)
  | '+' :: rest => (false, rest)
  | s => (false, s)

/-- The text as it is read: blanks dropped, digits made plain, underscores taken out. -/
def tidy (s : List Char) : Option (List Char) :=
  ungroup (plainDigits (Text.trimBy Text.isNumberBlank s))

/-- The longest whole number that is written or read, in digits. -/
def maxDigits : Nat := 4300

/-- The value of a non-empty row of ASCII digits. -/
def natOf? (s : List Char) : Option Nat :=
  if s ≠ [] ∧ s.all Char.isDigit then some (Nat.ofDigitChars 10 s 0) else none

/-- Reads a whole number. -/
def readInt? (s : List Char) : Option Int := do
  let parts := splitSign (← tidy s)
  let n ← natOf? parts.2
  if parts.2.length ≤ maxDigits then some (if parts.1 then -n else n) else none

/-- The exponent part of a numeral: nothing, or `e` and a whole number. -/
def exponentOf? : List Char → Option Int
  | [] => some 0
  | c :: rest =>
    if c = 'e' ∨ c = 'E' then
      let parts := splitSign rest
      (natOf? parts.2).map fun n => if parts.1 then -n else n
    else none

/-- The digits after a leading point, and what follows them. -/
def splitFraction : List Char → List Char × List Char
  | '.' :: rest => (rest.takeWhile Char.isDigit, rest.dropWhile Char.isDigit)
  | s => ([], s)

/-- Reads digits with an optional point and an optional exponent. -/
def decimalOf? (negative : Bool) (s : List Char) : Option Decimal := do
  let parts := splitFraction (s.dropWhile Char.isDigit)
  let digits ← natOf? (s.takeWhile Char.isDigit ++ parts.1)
  let exponent ← exponentOf? parts.2
  return ⟨negative, digits, exponent - parts.1.length⟩

/-- Reads a double: a decimal numeral, or the name of infinity or of the undefined number in
letters of either case. -/
def readBinary64? (s : List Char) : Option Binary64 := do
  let parts := splitSign (← tidy s)
  let name := String.ofList (parts.2.map Char.toLower)
  if name = "inf" ∨ name = "infinity" then some (.infinite parts.1)
  else if name = "nan" then some .nan
  else (decimalOf? parts.1 parts.2).map Decimal.toBinary64

/-- Whether the text, less its leading signs, consists of characters that stand for digits. -/
def looksWhole (s : List Char) : Bool :=
  let digits := s.dropWhile fun c => c = '+' || c = '-'
  !digits.isEmpty && digits.all Text.isDigitLike

end SearchSql.Number
