import SearchSql.Number.Printing

/-!
# Calendar days

Days of the years 1 to 9999 in the Gregorian calendar, extended backwards.
-/

namespace SearchSql

def isLeap (year : Nat) : Bool :=
  year % 4 = 0 && (year % 100 ≠ 0 || year % 400 = 0)

def monthLengths (year : Nat) : List Nat :=
  [31, if isLeap year then 29 else 28, 31, 30, 31, 30, 31, 31, 30, 31, 30, 31]

def yearLength (year : Nat) : Nat := if isLeap year then 366 else 365

/-- Whether the three numbers name a day. -/
def IsDate (year month day : Nat) : Prop :=
  (1 ≤ year ∧ year ≤ 9999) ∧ 1 ≤ month ∧ 1 ≤ day ∧
    day ≤ (monthLengths year)[month - 1]?.getD 0

instance (year month day : Nat) : Decidable (IsDate year month day) := by
  unfold IsDate; infer_instance

/-- A day. -/
structure Date where
  year : Nat
  month : Nat
  day : Nat
  valid : IsDate year month day
  deriving DecidableEq

namespace Date

def of? (year month day : Nat) : Option Date :=
  if h : IsDate year month day then some ⟨year, month, day, h⟩ else none

/-- The number of days before the first of January of a year. -/
def daysBeforeYear (year : Nat) : Nat :=
  (year - 1) * 365 + (year - 1) / 4 - (year - 1) / 100 + (year - 1) / 400

/-- The place of the day in the count that gives the first day of the year 1 the number 1. -/
def ordinal (d : Date) : Nat :=
  daysBeforeYear d.year + ((monthLengths d.year).take (d.month - 1)).foldl (· + ·) 0 + d.day

/-- The weekday of the first of January, Monday being 0. -/
def firstWeekday (year : Nat) : Nat := daysBeforeYear year % 7

/-- The month and the day of the month with `n` days of the year before it. -/
def monthAndDay (n : Nat) : List Nat → Nat → Option (Nat × Nat)
  | [], _ => none
  | length :: rest, month =>
    if n < length then some (month, n + 1) else monthAndDay (n - length) rest (month + 1)

/-- The day with `n` days of the year before it; a count below zero or past the end of the year
leads into the year before or after. -/
def ofYearDay? (year : Nat) (n : Int) : Option Date :=
  let (y, k) : Nat × Nat :=
    if n < 0 then (year - 1, (n + yearLength (year - 1)).toNat)
    else if yearLength year ≤ n then (year + 1, (n - yearLength year).toNat)
    else (year, n.toNat)
  (monthAndDay k (monthLengths y) 1).bind fun (month, day) => of? y month day

/-- A year has a week 53 if it starts on a Thursday, or on a Wednesday and is a leap year. -/
def hasWeek53 (year : Nat) : Bool :=
  firstWeekday year = 3 || (firstWeekday year = 2 && isLeap year)

/-- The day of a week date: week 1 is the one with the first Thursday, and weeks start on
Monday, day 1. -/
def ofWeek? (year week weekday : Nat) : Option Date :=
  if 1 ≤ year ∧ year ≤ 9999 ∧ 1 ≤ weekday ∧ weekday ≤ 7 ∧
      (1 ≤ week ∧ week ≤ 52 ∨ week = 53 ∧ hasWeek53 year) then
    let first : Int := firstWeekday year
    let start := if first ≤ 3 then -first else 7 - first
    ofYearDay? year (start + (week - 1) * 7 + (weekday - 1))
  else none

end Date

/-- A whole number with zeros in front up to a width. -/
def padded (width n : Nat) : List Char :=
  List.replicate (width - (Number.natText n).length) '0' ++ Number.natText n

/-- The text `YYYY-MM-DD`. -/
def Date.text (d : Date) : List Char :=
  padded 4 d.year ++ '-' :: (padded 2 d.month ++ '-' :: padded 2 d.day)

/-- The form in which messages show a day. -/
def Date.shown (d : Date) : String := s!"datetime.date({d.year}, {d.month}, {d.day})"

end SearchSql
