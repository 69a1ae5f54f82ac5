import SearchSql.Calendar.Date

/-!
# Moments

A day with a time of day, and possibly the offset of its clock from universal time. The offset is
fixed, or a zone gives it; then the clock may show the same time twice, and the fold says which of
the two is meant. Two moments whose clocks are set by one zone are compared by their clocks, others
only if both have an offset or neither has one.
-/

namespace SearchSql

def microsPerDay : Nat := 86400000000

/-- An offset is less than a day. -/
def IsOffset (micros : Int) : Prop := micros.natAbs < microsPerDay

instance (micros : Int) : Decidable (IsOffset micros) := inferInstanceAs (Decidable (_ < _))

/-- The zone that sets a clock: which one it is, how it is shown, and the offset that it would give
the clock in the other fold. -/
structure ClockZone where
  id : Nat
  shown : String
  flipped : Option Int
  deriving DecidableEq

/-- A day, the microseconds since midnight, and the offset of the clock in microseconds. A clock
that no zone sets has this offset at all times. -/
structure Moment where
  date : Date
  clock : Nat
  offset : Option Int
  zone : Option ClockZone
  fold : Bool
  clock_lt : clock < microsPerDay
  isOffset : ∀ o ∈ offset, IsOffset o
  deriving DecidableEq

namespace Moment

/-- A moment of a clock that no zone sets. -/
def of? (date : Date) (clock : Nat) (offset : Option Int) : Option Moment :=
  if h : clock < microsPerDay ∧ ∀ o ∈ offset, IsOffset o then
    some ⟨date, clock, offset, none, false, h.1, h.2⟩
  else none

def hour (m : Moment) : Nat := m.clock / 3600000000
def minute (m : Moment) : Nat := m.clock / 60000000 % 60
def second (m : Moment) : Nat := m.clock / 1000000 % 60
def micro (m : Moment) : Nat := m.clock % 1000000

/-- Microseconds on the clock's own count of days. -/
def wall (m : Moment) : Int := m.date.ordinal * microsPerDay + m.clock

/-- Microseconds in universal time; a moment without an offset is read as if its clock showed
it. -/
def instant (m : Moment) : Int := m.wall - m.offset.getD 0

/-- Whether one zone sets both clocks. -/
def sharesZone (a b : Moment) : Bool :=
  match a.zone, b.zone with
  | some y, some z => y.id == z.id
  | _, _ => false

/-- Whether the two can be put in order by their instants. -/
def comparable (a b : Moment) : Bool := a.offset.isSome == b.offset.isSome

/-- Whether the offset depends on the fold: the clock shows this time twice, or passes over it. -/
def dependsOnFold (m : Moment) : Bool := m.zone.any (·.flipped != m.offset)

/-- Whether the first moment is the later one. -/
def exceeds (a b : Moment) : Bool :=
  if a.sharesZone b then b.wall < a.wall else a.comparable b && b.instant < a.instant

/-- Whether the two count as equal. A time that depends on the fold equals none of another zone. -/
def same (a b : Moment) : Bool :=
  if a.sharesZone b then a.wall == b.wall
  else a.comparable b && a.instant == b.instant && ! a.dependsOnFold && ! b.dependsOnFold

/-- The text `.ffffff`, or nothing for a whole second. -/
def fractionText (micro : Nat) : List Char :=
  if micro = 0 then [] else '.' :: padded 6 micro

/-- An offset as `+HH:MM`, with seconds and their fraction where they are not zero. -/
def offsetText (offset : Int) : List Char :=
  let n := offset.natAbs
  let seconds := n / 1000000 % 60
  let micro := n % 1000000
  (if offset < 0 then '-' else '+') :: padded 2 (n / 3600000000) ++
    ':' :: padded 2 (n / 60000000 % 60) ++
    if seconds = 0 ∧ micro = 0 then [] else ':' :: padded 2 seconds ++ fractionText micro

/-- The text of the moment with the given mark between day and time. -/
def textWith (mark : Char) (m : Moment) : List Char :=
  m.date.text ++ mark :: padded 2 m.hour ++ ':' :: padded 2 m.minute ++ ':' :: padded 2 m.second ++
    fractionText m.micro ++
    match m.offset with
    | none => []
    | some o => offsetText o

/-- The text `YYYY-MM-DDTHH:MM:SS`, with fraction and offset where there are any. -/
def text (m : Moment) : List Char := m.textWith 'T'

/-- An offset in whole days, seconds and microseconds, of which only the days may be negative;
parts that are zero are left out. -/
def shownOffset (offset : Int) : String :=
  if offset = 0 then "datetime.timezone.utc"
  else
    let days := Int.fdiv offset microsPerDay
    let rest := Int.fmod offset microsPerDay
    let seconds := rest / 1000000
    let micro := rest % 1000000
    let parts := [("days", days), ("seconds", seconds), ("microseconds", micro)]
    let shownParts := (parts.filter (·.2 ≠ 0)).map fun (name, n) => s!"{name}={n}"
    let list := String.intercalate ", " shownParts
    s!"datetime.timezone(datetime.timedelta({list}))"

/-- The form in which messages show a moment: the numbers from the year down to the last one that
is not zero, but at least to the minute, then the second fold, and the zone or the offset. -/
def shown (m : Moment) : String :=
  let numbers := [m.date.year, m.date.month, m.date.day, m.hour, m.minute] ++
    (if m.second = 0 ∧ m.micro = 0 then [] else [m.second]) ++
    (if m.micro = 0 then [] else [m.micro])
  let fold := if m.fold then ", fold=1" else ""
  let zone := match m.zone, m.offset with
    | some z, _ => s!", tzinfo={z.shown}"
    | none, some o => s!", tzinfo={shownOffset o}"
    | none, none => ""
  let list := String.intercalate ", " (numbers.map toString)
  s!"datetime.datetime({list}{fold}{zone})"

end Moment

end SearchSql
