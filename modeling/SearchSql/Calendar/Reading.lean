import SearchSql.Calendar.Moment

/-!
# Reading days and moments

The calendar, basic and week forms of a day, and a day followed by a mark and a time of day. The
reading of a time is lenient in places: a fraction may follow the hours or the minutes, and a
stray character is passed over before an offset.
-/

namespace SearchSql

/-- The text with every character outside ASCII replaced by as many marks as it has bytes, so
that its length is counted in bytes. -/
def places (s : List Char) : List Char :=
  s.flatMap fun c => if c.toNat < 128 then [c] else List.replicate c.utf8Size '\uFFFD'

/-- A row of exactly `n` digits in front, and what follows. -/
def takeDigits? (n : Nat) (s : List Char) : Option (Nat × List Char) :=
  let digits := s.take n
  if digits.length = n ∧ digits.all Char.isDigit then
    some (Nat.ofDigitChars 10 digits 0, s.drop n)
  else none

namespace Date

/-- Reads the part of a week date after the `W`. -/
def readWeek? (year : Nat) (dashed : Bool) (s : List Char) : Option Date := do
  let (week, rest) ← takeDigits? 2 s
  match dashed, rest with
  | _, [] => ofWeek? year week 1
  | true, '-' :: rest => ofWeek? year week (← takeDigits? 1 rest).1
  | true, _ => none
  | false, rest => ofWeek? year week (← takeDigits? 1 rest).1

/-- Reads the part of a calendar date after the year. -/
def readMonthDay? (year : Nat) (dashed : Bool) (s : List Char) : Option Date := do
  let (month, rest) ← takeDigits? 2 s
  let rest ← match dashed, rest with
    | true, '-' :: rest => some rest
    | true, _ => none
    | false, rest => some rest
  let (day, _) ← takeDigits? 2 rest
  of? year month day

/-- Reads a day in one of the forms `YYYY-MM-DD`, `YYYYMMDD`, `YYYY-Www`, `YYYY-Www-D`, `YYYYWww`
and `YYYYWwwD`. Whatever follows a complete form is passed over. -/
def readForm? (s : List Char) : Option Date := do
  let (year, rest) ← takeDigits? 4 s
  let (dashed, rest) := match rest with
    | '-' :: rest => (true, rest)
    | rest => (false, rest)
  match rest with
  | 'W' :: rest => readWeek? year dashed rest
  | rest => readMonthDay? year dashed rest

/-- Reads a day, whose text has seven, eight or ten bytes. -/
def read? (s : List Char) : Option Date :=
  let size := (places s).length
  if size = 7 ∨ size = 8 ∨ size = 10 then readForm? s else none

end Date

/-- A time of day as it is read: its parts, not yet checked, and whether something was left over
behind it. -/
structure Clock where
  hour : Nat
  minute : Nat
  second : Nat
  micro : Nat
  leftOver : Bool
  deriving DecidableEq

namespace Clock

/-- Reads up to six digits of a fraction of a second; further digits are passed over. -/
def readFraction? (s : List Char) : Option (Nat × List Char) := do
  let count := min 6 s.length
  let (n, rest) ← takeDigits? count s
  return (n * Nat.pow 10 (6 - count), rest.dropWhile Char.isDigit)

/-- Reads the parts of a time that remain to be read, the hour being the first of three, and
returns them with the fraction and what is left over. `colons` says whether the parts are set
apart by colons. A single character at the end is left over, whatever it is. -/
def readParts? (colons : Bool) : Nat → List Char → Option (List Nat × Nat × List Char)
  | 0, s => do
    let (micro, rest) ← readFraction? s
    return ([], micro, rest)
  | remaining + 1, s => do
    let (n, rest) ← takeDigits? 2 s
    match rest with
    | [] => return ([n], 0, [])
    | [c] => return ([n], 0, [c])
    | c :: rest =>
      let colons := if remaining = 2 then c = ':' else colons
      if colons && c = ':' then
        let (parts, micro, rest) ← readParts? colons remaining rest
        return (n :: parts, micro, rest)
      else if c = '.' || c = ',' then
        let (micro, rest) ← readFraction? rest
        return ([n], micro, rest)
      else if colons then none
      else
        let (parts, micro, rest) ← readParts? colons remaining (c :: rest)
        return (n :: parts, micro, rest)

/-- Reads a time of day. The character NUL ends the text. -/
def read? (s : List Char) : Option Clock := do
  let (parts, micro, rest) ← readParts? false 3 s
  return ⟨parts[0]?.getD 0, parts[1]?.getD 0, parts[2]?.getD 0, micro,
    rest.head?.any (· ≠ Char.ofNat 0)⟩

def seconds (c : Clock) : Nat := (c.hour * 60 + c.minute) * 60 + c.second

def micros (c : Clock) : Nat := c.seconds * 1000000 + c.micro

/-- The size of an offset. One of less than a second counts as none. -/
def offsetMicros (c : Clock) : Int := if c.seconds = 0 then 0 else c.micros

end Clock

namespace Moment

/-- The length of the day in front of a time. A week date without dashes is told from its
weekday by the number of digits that follow, as those of a time come in pairs. -/
def dateLength (s : List Char) : Nat :=
  if s.length = 7 then 7
  else if s[4]? = some '-' then
    if s[5]? = some 'W' then
      if s[8]? = some '-' ∧ ¬ s[10]?.any Char.isDigit then 10 else 8
    else 10
  else if s[4]? = some 'W' then
    let digits := 7 + ((s.drop 7).takeWhile Char.isDigit).length
    if digits < 9 then digits else if digits % 2 = 0 then 7 else 8
  else 8

/-- Reads the offset of a clock from its mark on: nothing, `Z`, or a signed time. -/
def readOffset? : List Char → Option (Option Int)
  | [] => some none
  | 'Z' :: rest => if rest.head?.any (· ≠ Char.ofNat 0) then none else some (some 0)
  | sign :: rest => do
    let c ← Clock.read? rest
    if c.leftOver then none
    else some (some (if sign = '-' then -c.offsetMicros else c.offsetMicros))

def startsOffset (c : Char) : Bool := c = '+' || c = '-' || c = 'Z'

/-- Reads a time of day with its offset. What is left over behind the time is passed over if an
offset follows. -/
def readTime? (date : Date) (s : List Char) : Option Moment := do
  let zone := s.dropWhile (! startsOffset ·)
  let c ← Clock.read? (s.takeWhile (! startsOffset ·))
  if c.leftOver && zone.isEmpty then none
  else
    let offset ← readOffset? zone
    if c.hour ≤ 23 ∧ c.minute ≤ 59 ∧ c.second ≤ 59 then of? date c.micros offset else none

/-- Reads a day, alone or followed by any one character and a time. -/
def read? (s : List Char) : Option Moment := do
  let date ← Date.readForm? (s.take (dateLength s))
  match s.drop (dateLength s) with
  | [] => of? date 0 none
  | _ :: time => readTime? date (places time)

end Moment

end SearchSql
