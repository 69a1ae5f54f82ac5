import Mathlib.Algebra.Order.Field.Rat
import Mathlib.Algebra.Order.Field.Basic
import SearchSql.Number.Printing

/-!
# The worth of numbers

A finite double stands for the rational number that its sign, its exponent and its fraction spell.
Counting units of the least positive double loses nothing of it (`Finite64.exact_eq`), so numbers of
either kind are compared by what they are worth, without rounding (`Number.exact_lt_exact_iff`).
-/

namespace SearchSql

namespace Finite64

/-- The worth of a magnitude, by its exponent and its fraction. The magnitudes with the exponent
zero go on below the least normal one. -/
def magnitude (rank : ℕ) : ℚ :=
  let fraction := rank % perBinade
  let exponent := rank / perBinade
  if exponent = 0 then fraction * 2 ^ (-1074 : ℤ)
  else (perBinade + fraction) * 2 ^ ((exponent : ℤ) - 1075)

def worth (x : Finite64) : ℚ := if x.negative then -magnitude x.rank else magnitude x.rank

theorem unitsPerOne_eq : (unitsPerOne : ℚ) = 2 ^ (1074 : ℤ) := by
  have power (k : ℕ) : ((1 <<< k : ℕ) : ℚ) = 2 ^ (k : ℤ) := by
    rw [Nat.one_shiftLeft, Nat.cast_pow, Nat.cast_ofNat, zpow_natCast]
  exact power 1074

theorem unitsPerOne_pos : (0 : ℚ) < unitsPerOne := by
  rw [unitsPerOne_eq]
  exact zpow_pos two_pos 1074

/-- The units of a magnitude are what it is worth. -/
theorem unitsOf_eq (rank : ℕ) : (unitsOf rank : ℚ) = magnitude rank * unitsPerOne := by
  have shift (n : ℤ) : (2 : ℚ) ^ n * 2 ^ (1074 : ℤ) = 2 ^ (n + 1074) :=
    (zpow_add₀ two_ne_zero n 1074).symm
  rw [unitsOf, magnitude, unitsPerOne_eq]
  by_cases small : rank < perBinade
  · have first : rank / perBinade = 0 := Nat.div_eq_of_lt small
    rw [if_pos small, if_pos first, Nat.mod_eq_of_lt small, mul_assoc, shift]
    simp
  · have later : 0 < rank / perBinade := Nat.div_pos (Nat.not_lt.mp small) (by decide)
    have exponent : ((rank / perBinade : ℕ) : ℤ) - 1075 + 1074 =
        ((rank / perBinade - 1 : ℕ) : ℤ) := by
      omega
    rw [if_neg small, if_neg later.ne', mul_assoc, shift, exponent, zpow_natCast, Nat.shiftLeft_eq]
    push_cast
    rfl

theorem exact_eq (x : Finite64) : (x.exact : ℚ) = x.worth * unitsPerOne := by
  rw [exact, worth, units]
  cases x.negative with
  | false => simp [unitsOf_eq]
  | true => simp [unitsOf_eq]

end Finite64

namespace Number

/-- The rational number that a number is. -/
def worth : Number → ℚ
  | .int n => n
  | .real x => x.worth

theorem exact_eq (n : Number) : (n.exact : ℚ) = n.worth * Finite64.unitsPerOne := by
  cases n with
  | int n => rw [exact, worth, Int.cast_mul, Int.cast_natCast]
  | real x => exact x.exact_eq

/-- Whole numbers and doubles are compared by what they are worth. -/
theorem exact_lt_exact_iff {m n : Number} : m.exact < n.exact ↔ m.worth < n.worth := by
  rw [← Int.cast_lt (R := ℚ), exact_eq, exact_eq]
  exact mul_lt_mul_iff_left₀ Finite64.unitsPerOne_pos

/-- Two to the 53rd and one is above the double that it would be rounded to. -/
example : exact (.real ⟨false, 0x4340000000000000, by decide⟩) < exact (.int (2 ^ 53 + 1)) := by
  decide

end Number

end SearchSql
