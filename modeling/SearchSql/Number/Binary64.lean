/-!
# Double-precision numbers

The finite doubles in exact arithmetic. A magnitude is kept as its rank among the non-negative
doubles, so equal numbers of one sign are equal values, and its worth is a natural number of units
of 2⁻¹⁰⁷⁴, the least positive double. Main statement: rounding a quotient that is a double gives
that double (`rankOf_eq`).
-/

namespace SearchSql

/-- A finite double: a sign and the rank of its magnitude. Zero has a sign as well. -/
structure Finite64 where
  negative : Bool
  rank : Nat
  rank_lt : rank < 0x7ff0000000000000
  deriving DecidableEq, Repr

/-- A double. -/
inductive Binary64 where
  | finite (x : Finite64)
  | infinite (negative : Bool)
  | nan
  deriving DecidableEq, Repr

namespace Finite64

/-- Zero of either sign. -/
def zero (negative : Bool) : Finite64 := ⟨negative, 0, by decide⟩

/-- The number of doubles between two powers of two. -/
def perBinade : Nat := 0x10000000000000

/-- The worth of a rank in units of 2⁻¹⁰⁷⁴: the first two binades are spaced by one unit, each
later one by twice the spacing of the one before. -/
def unitsOf (rank : Nat) : Nat :=
  if rank < perBinade then rank
  else (perBinade + rank % perBinade) <<< (rank / perBinade - 1)

def units (x : Finite64) : Nat := unitsOf x.rank

/-- The exact worth in units of 2⁻¹⁰⁷⁴. -/
def exact (x : Finite64) : Int :=
  if x.negative then -(x.units : Int) else x.units

/-- The number of units in one. -/
def unitsPerOne : Nat := 1 <<< 1074

/-- A quotient rounded to the nearest whole number, a half to the even one. -/
def roundHalfEven (num den : Nat) : Nat :=
  let whole := num / den
  let rest := num % den
  if 2 * rest < den ∨ 2 * rest = den ∧ whole % 2 = 0 then whole else whole + 1

/-- The rank nearest to a quotient of units, a half to the even one. It may lie past the largest
finite double. -/
def rankOf (num den : Nat) : Nat :=
  let shift := (num / den).log2 - 52
  shift * perBinade + roundHalfEven num (den <<< shift)

/-- The double nearest to a quotient of units; what rounds past the largest is infinite. -/
def ofRatio (negative : Bool) (num den : Nat) : Binary64 :=
  if h : rankOf num den < 0x7ff0000000000000 then .finite ⟨negative, rankOf num den, h⟩
  else .infinite negative

/-- The double nearest to a whole number, unless it lies past the largest. -/
def ofInt? (n : Int) : Option Finite64 :=
  match ofRatio (n < 0) (n.natAbs * unitsPerOne) 1 with
  | .finite x => some x
  | _ => none

theorem roundHalfEven_mul {n den : Nat} (h : 0 < den) : roundHalfEven (n * den) den = n := by
  simp [roundHalfEven, Nat.mul_div_cancel n h, Nat.mul_mod_left, h]

theorem shiftLeft_pos {n : Nat} (h : 0 < n) (k : Nat) : 0 < n <<< k := by
  rw [Nat.shiftLeft_eq]
  exact Nat.mul_pos h (Nat.two_pow_pos k)

theorem log2_shiftLeft {m k : Nat} (lower : perBinade ≤ m) (upper : m < 2 * perBinade) :
    (m <<< k).log2 = 52 + k := by
  have hk : 0 < 2 ^ k := Nat.two_pow_pos k
  simp only [perBinade] at lower upper
  rw [Nat.shiftLeft_eq]
  have hm : m * 2 ^ k ≠ 0 := Nat.mul_ne_zero (by omega) (by omega)
  apply (Nat.log2_eq_iff hm).2
  constructor
  · rw [Nat.pow_add]; exact Nat.mul_le_mul_right _ lower
  · rw [show 52 + k + 1 = 53 + k by omega, Nat.pow_add]
    exact Nat.mul_lt_mul_of_pos_right upper hk

/-- A quotient that is the worth of a rank has that rank as its nearest one. -/
theorem rankOf_eq {rank den : Nat} (h : 0 < den) : rankOf (unitsOf rank * den) den = rank := by
  unfold rankOf
  rw [Nat.mul_div_cancel _ h]
  by_cases small : rank < perBinade
  · have hu : unitsOf rank = rank := by simp [unitsOf, small]
    have hlog : rank.log2 - 52 = 0 := by
      rcases Nat.eq_zero_or_pos rank with rfl | hpos
      · decide
      · have : rank.log2 < 52 := (Nat.log2_lt (by omega)).2 small
        omega
    simp [hu, hlog, roundHalfEven_mul h]
  · have hu : unitsOf rank = (perBinade + rank % perBinade) <<< (rank / perBinade - 1) := by
      simp [unitsOf, small]
    have hmod : rank % perBinade < perBinade := Nat.mod_lt _ (by decide)
    have hdiv := Nat.div_add_mod rank perBinade
    have hpos : 1 ≤ rank / perBinade := (Nat.one_le_div_iff (by decide)).2 (by omega)
    have hlog := log2_shiftLeft (k := rank / perBinade - 1)
      (m := perBinade + rank % perBinade) (by omega) (by omega)
    have hswap : unitsOf rank * den
        = (perBinade + rank % perBinade) * den <<< (rank / perBinade - 1) := by
      rw [hu, Nat.shiftLeft_eq, Nat.shiftLeft_eq, Nat.mul_assoc, Nat.mul_comm (2 ^ _) den]
    rw [hswap, hu, hlog, Nat.add_sub_cancel_left]
    dsimp only
    rw [roundHalfEven_mul (shiftLeft_pos h _)]
    generalize rank / perBinade = e at *
    obtain ⟨e, rfl⟩ : ∃ f, e = f + 1 := ⟨e - 1, by omega⟩
    rw [Nat.mul_add] at hdiv
    rw [Nat.add_sub_cancel, Nat.mul_comm e]
    omega

/-- Rounding the exact worth of a finite double gives it back. -/
theorem ofRatio_units (x : Finite64) {den : Nat} (h : 0 < den) :
    ofRatio x.negative (x.units * den) den = .finite x := by
  have nearest : rankOf (unitsOf x.rank * den) den = x.rank := rankOf_eq h
  unfold ofRatio units
  rw [nearest]
  exact dif_pos x.rank_lt

end Finite64

end SearchSql
