import Mathlib.Algebra.BigOperators.Group.List.Basic
import Mathlib.Algebra.Order.BigOperators.Group.List
import Mathlib.Algebra.Order.Group.Nat
import SearchSql.Calendar.Moment

/-!
# The order of days and moments

Days are counted in the order of the calendar: by the year, then by the month, then by the day
(`Date.ordinal_lt_iff`). Moments of one zone are compared by their day and their clock, and so are
moments without an offset; moments with one are compared by the instant in universal time, and
others not at all (`Moment.exceeds_iff`).
-/

namespace SearchSql

namespace Date

/-- The first day is the earlier one in the calendar. -/
def Before (c d : Date) : Prop :=
  c.year < d.year ∨ c.year = d.year ∧ (c.month < d.month ∨ c.month = d.month ∧ c.day < d.day)

theorem daysBeforeYear_succ {year : ℕ} (pos : 1 ≤ year) :
    daysBeforeYear (year + 1) = daysBeforeYear year + yearLength year := by
  obtain ⟨n, rfl⟩ : ∃ n, year = n + 1 := ⟨year - 1, by omega⟩
  -- Each of the three rules counts one more if the year is a multiple.
  have fours : (n + 1) / 4 = n / 4 + if (n + 1) % 4 = 0 then 1 else 0 := by
    split <;> omega
  have hundreds : (n + 1) / 100 = n / 100 + if (n + 1) % 100 = 0 then 1 else 0 := by
    split <;> omega
  have fourHundreds : (n + 1) / 400 = n / 400 + if (n + 1) % 400 = 0 then 1 else 0 := by
    split <;> omega
  have nested : ((n + 1) % 100 = 0 → (n + 1) % 4 = 0) ∧
      ((n + 1) % 400 = 0 → (n + 1) % 100 = 0) := by
    omega
  have rare : n / 100 ≤ n / 4 := Nat.div_le_div_left (by decide) (by decide)
  unfold daysBeforeYear yearLength isLeap
  simp only [Nat.add_sub_cancel, fours, hundreds, fourHundreds, ne_eq, Bool.and_eq_true,
    Bool.or_eq_true, decide_eq_true_eq]
  generalize (n + 1) % 4 = four, (n + 1) % 100 = hundred, (n + 1) % 400 = fourHundred at *
  generalize n / 4 = a, n / 100 = b at *
  split_ifs <;> omega

theorem daysBeforeYear_mono : Monotone daysBeforeYear := by
  refine monotone_nat_of_le_succ fun year => ?_
  rcases Nat.eq_zero_or_pos year with rfl | pos
  · exact Nat.le_refl _
  · rw [daysBeforeYear_succ pos]
    exact Nat.le_add_right _ _

/-- The days of the year before the first of a month; months are counted from zero here. -/
def daysBeforeMonth (year month : ℕ) : ℕ := ((monthLengths year).take month).foldl (· + ·) 0

theorem daysBeforeMonth_mono (year : ℕ) {a b : ℕ} (h : a ≤ b) :
    daysBeforeMonth year a ≤ daysBeforeMonth year b := by
  rw [daysBeforeMonth, daysBeforeMonth, ← List.sum_eq_foldl, ← List.sum_eq_foldl]
  exact List.monotone_sum_take (monthLengths year) h

theorem daysBeforeMonth_twelve (year : ℕ) : daysBeforeMonth year 12 = yearLength year := by
  unfold daysBeforeMonth monthLengths yearLength
  cases isLeap year <;> rfl

theorem ordinal_eq (d : Date) :
    d.ordinal = daysBeforeYear d.year + daysBeforeMonth d.year (d.month - 1) + d.day :=
  rfl

theorem month_le (d : Date) : d.month ≤ 12 := by
  obtain ⟨-, month, first, last⟩ := d.valid
  by_contra later
  have outside : (monthLengths d.year)[d.month - 1]? = none :=
    List.getElem?_eq_none (show 12 ≤ d.month - 1 by omega)
  rw [outside, Option.getD_none] at last
  omega

/-- A day lies in its month. -/
theorem add_day_le (d : Date) :
    daysBeforeMonth d.year (d.month - 1) + d.day ≤ daysBeforeMonth d.year d.month := by
  obtain ⟨-, month, -, last⟩ := d.valid
  have inside : d.month - 1 < (monthLengths d.year).length := by
    have := d.month_le
    show d.month - 1 < 12
    omega
  have whole : daysBeforeMonth d.year (d.month - 1 + 1) =
      daysBeforeMonth d.year (d.month - 1) + (monthLengths d.year)[d.month - 1] := by
    rw [daysBeforeMonth, daysBeforeMonth, ← List.sum_eq_foldl, ← List.sum_eq_foldl]
    exact List.sum_take_succ _ _ inside
  rw [Nat.sub_add_cancel month] at whole
  rw [List.getElem?_eq_getElem inside, Option.getD_some] at last
  omega

/-- An earlier day has a lower number. -/
theorem Before.ordinal_lt {c d : Date} (h : c.Before d) : c.ordinal < d.ordinal := by
  obtain ⟨⟨pos, -⟩, -, -, -⟩ := c.valid
  obtain ⟨-, -, first, -⟩ := d.valid
  have month := c.add_day_le
  rw [c.ordinal_eq, d.ordinal_eq]
  rcases h with years | ⟨sameYear, months | ⟨sameMonth, days⟩⟩
  · have year := daysBeforeMonth_mono c.year c.month_le
    have next := daysBeforeYear_mono (Nat.succ_le_of_lt years)
    rw [Nat.succ_eq_add_one, daysBeforeYear_succ pos] at next
    rw [daysBeforeMonth_twelve] at year
    omega
  · have later := daysBeforeMonth_mono d.year (Nat.le_sub_one_of_lt months)
    rw [sameYear] at month ⊢
    omega
  · rw [sameYear, sameMonth]
    omega

theorem eq_or_before (c d : Date) : c = d ∨ c.Before d ∨ d.Before c := by
  by_cases same : c.year = d.year ∧ c.month = d.month ∧ c.day = d.day
  · cases c
    cases d
    obtain ⟨rfl, rfl, rfl⟩ := same
    exact Or.inl rfl
  · unfold Before
    omega

theorem ordinal_lt_iff {c d : Date} : c.ordinal < d.ordinal ↔ c.Before d := by
  constructor
  · intro less
    rcases eq_or_before c d with rfl | before | after
    · exact absurd less (Nat.lt_irrefl _)
    · exact before
    · exact absurd after.ordinal_lt (Nat.lt_asymm less)
  · exact Before.ordinal_lt

theorem ordinal_inj {c d : Date} : c.ordinal = d.ordinal ↔ c = d := by
  constructor
  · intro same
    rcases eq_or_before c d with rfl | before | after
    · rfl
    · exact absurd same before.ordinal_lt.ne
    · exact absurd same after.ordinal_lt.ne'
  · exact congrArg ordinal

end Date

namespace Moment

/-- The clock of the first moment shows the earlier day and time. -/
def ShowsBefore (a b : Moment) : Prop :=
  a.date.Before b.date ∨ a.date = b.date ∧ a.clock < b.clock

/-- The first moment is the earlier one: by day and clock if one zone sets both clocks or neither
has an offset, and in universal time if both have one. -/
def Before (a b : Moment) : Prop :=
  if a.sharesZone b then a.ShowsBefore b
  else
    match a.offset, b.offset with
    | none, none => a.ShowsBefore b
    | some o, some p => a.wall - o < b.wall - p
    | _, _ => False

theorem wall_lt_iff {a b : Moment} : a.wall < b.wall ↔ a.ShowsBefore b := by
  have clockA : a.clock < 86400000000 := a.clock_lt
  have clockB : b.clock < 86400000000 := b.clock_lt
  rw [ShowsBefore, ← Date.ordinal_lt_iff, ← Date.ordinal_inj]
  simp only [wall, microsPerDay]
  omega

theorem sharesZone_comm (a b : Moment) : a.sharesZone b = b.sharesZone a := by
  unfold sharesZone
  cases a.zone <;> cases b.zone <;> simp [eq_comm]

theorem exceeds_iff {a b : Moment} : a.exceeds b = true ↔ b.Before a := by
  unfold exceeds Before
  rw [sharesZone_comm]
  split
  · rw [decide_eq_true_eq, wall_lt_iff]
  · rw [Bool.and_eq_true, decide_eq_true_eq, comparable, instant, instant]
    cases a.offset <;> cases b.offset <;> simp [wall_lt_iff]

/-- A time in the hour that the clocks of New York show twice, when summer time ends: first they are
four hours behind, then five. -/
def inRepeatedHour (minute : Fin 60) (fold : Bool) : Moment where
  date := ⟨2024, 11, 3, by decide⟩
  clock := 3600000000 + minute * 60000000
  offset := some (if fold then -18000000000 else -14400000000)
  zone := some ⟨0, "zoneinfo.ZoneInfo(key='America/New_York')",
    some (if fold then -14400000000 else -18000000000)⟩
  fold := fold
  clock_lt := by
    have := minute.isLt
    unfold microsPerDay
    omega
  isOffset := by cases fold <;> decide

end Moment

end SearchSql
