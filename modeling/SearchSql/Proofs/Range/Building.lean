import SearchSql.Proofs.Calendar.Order
import SearchSql.Proofs.Number.Worth
import SearchSql.Proofs.Range.Typing

/-!
# Which ranges can be had

A range is asked for by two values and their flags. It can be had exactly if each of the values can
stand for a bound, both bounds can stand in one range, and the lower one does not lie above the
upper one. Then its bounds are those that the values stand for, and its type is the one that they
call for (`built_iff_bounds_fit`). Above another moment of its zone lies the one whose clock shows
the later time, even if it is the earlier instant (`clocks_order_bounds_of_one_zone`).
-/

namespace SearchSql

/-- What a value stands for as a bound. Nothing, and a double past all numbers, is no bound. -/
inductive Value.StandsFor : Value → Option Bound → Prop where
  | null : Value.StandsFor .null none
  | infinite (negative : Bool) : Value.StandsFor (.real (.infinite negative)) none
  | int (n : ℤ) : Value.StandsFor (.int n) (some (.number (.int n)))
  | finite (x : Finite64) : Value.StandsFor (.real (.finite x)) (some (.number (.real x)))
  | date (d : Date) : Value.StandsFor (.date d) (some (.date d))
  | moment (m : Moment) : Value.StandsFor (.moment m) (some (.moment m))

theorem Value.standsFor_iff {v : Value} {bound : Option Bound} :
    v.StandsFor bound ↔ BoundOffer.settle v.toBoundOffer = .ok bound := by
  constructor
  · rintro (_ | _ | _ | _ | _ | _) <;> rfl
  · intro settled
    cases v with
    | null => cases settled; exact .null
    | int n => cases settled; exact .int n
    | real x =>
      cases x with
      | finite x => cases settled; exact .finite x
      | infinite negative => cases settled; exact .infinite negative
      | nan => cases settled
    | date d => cases settled; exact .date d
    | moment m => cases settled; exact .moment m
    | _ => cases settled

namespace Bound

/-- Two bounds that can stand in one range: two numbers of any kind, two days or two moments. -/
inductive Mixes : Bound → Bound → Prop where
  | numbers (m n : Number) : Mixes (.number m) (.number n)
  | dates (c d : Date) : Mixes (.date c) (.date d)
  | moments (a b : Moment) : Mixes (.moment a) (.moment b)

/-- The first bound lies above the second. -/
inductive Above : Bound → Bound → Prop where
  | number {m n : Number} (h : n.worth < m.worth) : Above (.number m) (.number n)
  | date {c d : Date} (h : d.Before c) : Above (.date c) (.date d)
  | moment {a b : Moment} (h : b.Before a) : Above (.moment a) (.moment b)

theorem exceeds_iff {a b : Bound} : a.exceeds b = true ↔ a.Above b := by
  constructor
  · intro exceeds
    cases a with
    | number m =>
      cases b with
      | number n => exact .number (Number.exact_lt_exact_iff.mp (of_decide_eq_true exceeds))
      | _ => cases exceeds
    | date c =>
      cases b with
      | date d => exact .date (Date.ordinal_lt_iff.mp (of_decide_eq_true exceeds))
      | _ => cases exceeds
    | moment a =>
      cases b with
      | moment b => exact .moment (Moment.exceeds_iff.mp exceeds)
      | _ => cases exceeds
  · rintro (h | h | h)
    · exact decide_eq_true (Number.exact_lt_exact_iff.mpr h)
    · exact decide_eq_true (Date.ordinal_lt_iff.mpr h)
    · exact Moment.exceeds_iff.mpr h

end Bound

namespace RangeType

/-- The type that the bounds of a range call for: numeric if one of them is a double, else that of
the bounds, else that of whole numbers. -/
structure CalledFor (l u : Option Bound) (type : RangeType) : Prop where
  numeric : type = .numeric ↔ ∃ x, l = some (.number (.real x)) ∨ u = some (.number (.real x))
  own : type ≠ .numeric → ∀ b, l = some b ∨ u = some b → b.type = type
  unbounded : l = none → u = none → type = .int8

theorem exists_unify_iff {l u : Option Bound} :
    (∃ type, unify l u = .ok type) ↔ ∀ a b, l = some a → u = some b → a.Mixes b := by
  constructor
  · rintro ⟨type, unified⟩ a b rfl rfl
    cases a with
    | number m =>
      cases b with
      | number n => exact .numbers m n
      | _ => cases m <;> cases unified
    | date c =>
      cases b with
      | number n => cases n <;> cases unified
      | date d => exact .dates c d
      | moment m => cases unified
    | moment a =>
      cases b with
      | number n => cases n <;> cases unified
      | date d => cases unified
      | moment b => exact .moments a b
  · intro mixes
    cases l with
    | none =>
      cases u with
      | none => exact ⟨_, rfl⟩
      | some b => exact ⟨_, rfl⟩
    | some a =>
      cases u with
      | none => exact ⟨_, rfl⟩
      | some b =>
        cases mixes a b rfl rfl with
        | numbers m n => cases m <;> cases n <;> exact ⟨_, rfl⟩
        | dates => exact ⟨_, rfl⟩
        | moments => exact ⟨_, rfl⟩

theorem eq_real_of_type {b : Bound} (h : b.type = .numeric) : ∃ x, b = .number (.real x) := by
  cases b with
  | number n =>
    cases n with
    | int n => cases h
    | real x => exact ⟨x, rfl⟩
  | date d => cases h
  | moment m => cases h

theorem calledFor_of_unify {l u : Option Bound} {type : RangeType}
    (unified : unify l u = .ok type) : type.CalledFor l u := by
  have fits := SearchRange.fits_of_unify unified
  constructor
  · constructor
    · rintro rfl
      rcases SearchRange.exists_bound_of_unify unified with ⟨rfl, rfl⟩ | ⟨b, present, own⟩
      · cases unified
      · obtain ⟨x, rfl⟩ := eq_real_of_type own
        exact ⟨x, present⟩
    · rintro ⟨x, present⟩
      rcases fits _ present with own | ⟨whole, -⟩
      · exact own.symm
      · cases whole
  · intro other b present
    rcases fits b present with own | ⟨-, numeric⟩
    · exact own
    · exact absurd numeric other
  · rintro rfl rfl
    cases unified
    rfl

/-- The bounds call for one type only. -/
theorem CalledFor.unique {l u : Option Bound} {s t : RangeType} (hs : s.CalledFor l u)
    (ht : t.CalledFor l u) : s = t := by
  -- Whether the type is numeric depends on the bounds alone; if it is not, any bound shows it.
  by_cases numeric : t = .numeric
  · rw [numeric]
    exact hs.numeric.mpr (ht.numeric.mp numeric)
  · have other : s ≠ .numeric := fun h => numeric (ht.numeric.mpr (hs.numeric.mp h))
    cases l with
    | some a => rw [← hs.own other a (Or.inl rfl), ht.own numeric a (Or.inl rfl)]
    | none =>
      cases u with
      | some b => rw [← hs.own other b (Or.inr rfl), ht.own numeric b (Or.inr rfl)]
      | none => rw [hs.unbounded rfl rfl, ht.unbounded rfl rfl]

end RangeType

namespace SearchRange

/-- Bounds are in order unless the lower one lies above the upper one. -/
theorem inverted?_eq_none_iff {l u : Option Bound} :
    inverted? l u = none ↔ ∀ a b, l = some a → u = some b → ¬ a.Above b := by
  cases l with
  | none => simp [inverted?]
  | some a =>
    cases u with
    | none => simp [inverted?]
    | some b =>
      have step : inverted? (some a) (some b) = none ↔ ¬ a.Above b := by
        rw [← Bound.exceeds_iff, inverted?]
        split <;> simp [*]
      rw [step]
      constructor
      · rintro ordered _ _ ⟨⟩ ⟨⟩
        exact ordered
      · intro ordered
        exact ordered a b rfl rfl

theorem inverted?_eq_some {l u : Option Bound} {a b : Bound} (h : inverted? l u = some (a, b)) :
    l = some a ∧ u = some b ∧ a.Above b := by
  unfold inverted? at h
  split at h
  · next exceeds =>
    obtain ⟨crossed, same⟩ := Option.ite_none_right_eq_some.mp h
    cases same
    exact ⟨rfl, rfl, Bound.exceeds_iff.mp crossed⟩
  · cases h

/-- A range is built as the type of its bounds exactly if each offer is settled to its bound and the
bounds have a common type and are in order. -/
theorem build_inferred_eq_ok_iff {lower upper : Option BoundOffer}
    {lowerInclusive upperInclusive : Bool} {r : SearchRange Bool} :
    build lower upper lowerInclusive upperInclusive .inferred = .ok r ↔
      BoundOffer.settle lower = .ok r.lower ∧ BoundOffer.settle upper = .ok r.upper ∧
        RangeType.unify r.lower r.upper = .ok r.type ∧ inverted? r.lower r.upper = none ∧
        r.lowerInclusive = (r.lower.isSome && lowerInclusive) ∧
        r.upperInclusive = (r.upper.isSome && upperInclusive) := by
  constructor
  · intro built
    obtain ⟨lower, upper, ⟨inferred, unified, asked⟩, ordered, lowerFlag, upperFlag⟩ :=
      build_cases built
    rcases asked with ⟨-, own⟩ | named
    · exact ⟨lower, upper, own ▸ unified, ordered, lowerFlag, upperFlag⟩
    · cases named
  · rintro ⟨settledLower, settledUpper, unified, ordered, lowerFlag, upperFlag⟩
    have defined {offer : Option BoundOffer} {bound : Option Bound}
        (settled : BoundOffer.settle offer = .ok bound) : offer ≠ some .nan := by
      rintro rfl
      cases settled
    rw [build, if_neg (defined settledLower), if_neg (defined settledUpper)]
    simp only [settledLower, settledUpper, unified, ordered, ← lowerFlag, ← upperFlag, bind,
      Except.bind, pure, Except.pure]

/-- What a range is that is built without asking for a type: its bounds are those that the values
stand for, they can stand together and are in order, and its type is the one that they call for. A
side with a bound keeps the flag that was given for it, an open side is exclusive. -/
structure Fits (lower upper lowerInclusive upperInclusive : Value) (r : SearchRange Value) :
    Prop where
  lower : lower.StandsFor r.lower
  upper : upper.StandsFor r.upper
  mixes : ∀ a b, r.lower = some a → r.upper = some b → a.Mixes b
  ordered : ∀ a b, r.lower = some a → r.upper = some b → ¬ a.Above b
  lowerFlag : r.lowerInclusive = if r.lower.isSome then lowerInclusive else .bool false
  upperFlag : r.upperInclusive = if r.upper.isSome then upperInclusive else .bool false
  type : r.type.CalledFor r.lower r.upper

theorem ofValues_null_eq_ok_iff {lower upper lowerInclusive upperInclusive : Value}
    {r : SearchRange Value} :
    ofValues lower upper lowerInclusive upperInclusive .null = .ok r ↔
      r.Fits lower upper lowerInclusive upperInclusive := by
  constructor
  · intro built
    obtain ⟨s, hs, rfl⟩ := Except.map_eq_ok.mp built
    obtain ⟨settledLower, settledUpper, unified, ordered, -⟩ := build_inferred_eq_ok_iff.mp hs
    exact {
      lower := Value.standsFor_iff.mpr settledLower
      upper := Value.standsFor_iff.mpr settledUpper
      mixes := RangeType.exists_unify_iff.mp ⟨_, unified⟩
      ordered := inverted?_eq_none_iff.mp ordered
      lowerFlag := rfl
      upperFlag := rfl
      type := RangeType.calledFor_of_unify unified }
  · intro fits
    obtain ⟨type, unified⟩ := RangeType.exists_unify_iff.mpr fits.mixes
    have own : type = r.type := (RangeType.calledFor_of_unify unified).unique fits.type
    have same : withFlags ⟨r.lower, r.upper, r.lower.isSome && lowerInclusive.isTrue,
        r.upper.isSome && upperInclusive.isTrue, r.type⟩ lowerInclusive upperInclusive = r := by
      rw [withFlags, ← fits.lowerFlag, ← fits.upperFlag]
    refine Except.map_eq_ok.mpr ⟨_, build_inferred_eq_ok_iff.mpr ?_, same⟩
    exact ⟨Value.standsFor_iff.mp fits.lower, Value.standsFor_iff.mp fits.upper, own ▸ unified,
      inverted?_eq_none_iff.mpr fits.ordered, rfl, rfl⟩

/-- Without asking for a type, a range can be had of two values if and only if each stands for a
bound or for none, and, if there are two bounds, they can stand in one range and the lower one does
not lie above the upper one. The range is then the one that fits the values and their flags. -/
theorem built_iff_bounds_fit (lower upper lowerInclusive upperInclusive : Value) :
    ((∃ r, ofValues lower upper lowerInclusive upperInclusive .null = .ok r) ↔
      ∃ l u, lower.StandsFor l ∧ upper.StandsFor u ∧
        ∀ a b, l = some a → u = some b → a.Mixes b ∧ ¬ a.Above b) ∧
    ∀ r, ofValues lower upper lowerInclusive upperInclusive .null = .ok r ↔
      r.Fits lower upper lowerInclusive upperInclusive := by
  refine ⟨⟨?_, ?_⟩, fun r => ofValues_null_eq_ok_iff⟩
  · rintro ⟨r, built⟩
    have fits := ofValues_null_eq_ok_iff.mp built
    exact ⟨r.lower, r.upper, fits.lower, fits.upper, fun a b ha hb =>
      ⟨fits.mixes a b ha hb, fits.ordered a b ha hb⟩⟩
  · rintro ⟨l, u, hl, hu, together⟩
    have mixes := fun a b ha hb => (together a b ha hb).1
    obtain ⟨type, unified⟩ := RangeType.exists_unify_iff.mpr mixes
    refine ⟨⟨l, u, if l.isSome then lowerInclusive else .bool false,
      if u.isSome then upperInclusive else .bool false, type⟩, ofValues_null_eq_ok_iff.mpr ?_⟩
    exact {
      lower := hl
      upper := hu
      mixes := mixes
      ordered := fun a b ha hb => (together a b ha hb).2
      lowerFlag := rfl
      upperFlag := rfl
      type := RangeType.calledFor_of_unify unified }

/-- In the hour that the clocks of a zone show twice, their order is not that of the instants: a
range is refused though its lower bound is the earlier instant, and one is built though its lower
bound is the later instant. -/
theorem clocks_order_bounds_of_one_zone :
    (Moment.inRepeatedHour 30 false).instant < (Moment.inRepeatedHour 10 true).instant ∧
      ofValues (.moment (.inRepeatedHour 30 false)) (.moment (.inRepeatedHour 10 true))
          (.bool true) (.bool false) .null =
        .error (.inverted (.moment (.inRepeatedHour 30 false))
          (.moment (.inRepeatedHour 10 true))) ∧
    (Moment.inRepeatedHour 40 false).instant < (Moment.inRepeatedHour 30 true).instant ∧
      ofValues (.moment (.inRepeatedHour 30 true)) (.moment (.inRepeatedHour 40 false))
          (.bool true) (.bool false) .null =
        .ok ⟨some (.moment (.inRepeatedHour 30 true)), some (.moment (.inRepeatedHour 40 false)),
          .bool true, .bool false, .timestamptz⟩ := by
  exact ⟨by decide, rfl, by decide, rfl⟩

end SearchRange

end SearchSql
