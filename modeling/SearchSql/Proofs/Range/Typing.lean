import SearchSql.Literal.Decoding
import SearchSql.Proofs.Range.ReadingBack

/-!
# Ranges and the bounds of their type

A range type is made for certain bounds (`RangeType.holds`). What is read as a range of a type has
such bounds (`typed_of_read`), and a range that has them is read back with its moments as they are
read (`read_eq_reread_iff`). Building a range does not see to it where a type is asked for: any type
is taken, whatever the bounds are, so that there are ranges that no reader restores
(`restored_iff_typed`).
-/

namespace SearchSql

/-- Whether a bound is a value of a range type. A numeric range may have whole numbers, too. -/
def RangeType.holds : RangeType → Bound → Bool
  | .int8, .number (.int _) => true
  | .numeric, .number _ => true
  | .date, .date _ => true
  | .timestamptz, .moment _ => true
  | _, _ => false

theorem RangeType.holds_iff {type : RangeType} {b : Bound} :
    type.holds b = true ↔ b.type = type ∨ b.type = .int8 ∧ type = .numeric := by
  cases b with
  | number n => cases n <;> cases type <;> simp [holds, Bound.type]
  | date d => cases type <;> simp [holds, Bound.type]
  | moment m => cases type <;> simp [holds, Bound.type]

theorem RangeType.ofName?_name (type : RangeType) : RangeType.ofName? type.name = some type := by
  cases type <;> rfl

theorem Bound.isShort_of_type {b : Bound} (other : b.type ≠ .int8) : b.IsShort := by
  rintro n rfl
  exact absurd rfl other

/-- What is read as a value of a type is undefined, infinite, or a bound of that type, and the bound
is what its own text is read as. -/
theorem BoundOffer.cases_of_read {type : RangeType} {s : List Char} {offer : BoundOffer}
    (h : BoundOffer.read? type s = some offer) :
    offer = .nan ∨ offer = .infinite ∨
      ∃ b : Bound, offer = b.toOffer ∧ type.holds b = true ∧ b.IsShort ∧ b.reread = b := by
  have whole {n : ℤ} (found : Number.readInt? s = some n) : (Bound.number (.int n)).IsShort := by
    rintro m ⟨⟩
    exact Number.length_natText_of_readInt? found
  cases type with
  | int8 =>
    obtain ⟨n, found, rfl⟩ := Option.map_eq_some_iff.mp h
    exact Or.inr (Or.inr ⟨.number (.int n), rfl, rfl, whole found, rfl⟩)
  | numeric =>
    rw [BoundOffer.read?] at h
    by_cases digits : Number.looksWhole s = true
    · rw [if_pos digits] at h
      obtain ⟨n, found, rfl⟩ := Option.map_eq_some_iff.mp h
      exact Or.inr (Or.inr ⟨.number (.int n), rfl, rfl, whole found, rfl⟩)
    · rw [if_neg digits] at h
      obtain ⟨x, -, rfl⟩ := Option.map_eq_some_iff.mp h
      cases x with
      | finite x =>
        refine Or.inr (Or.inr ⟨.number (.real x), rfl, rfl, Bound.isShort_of_type ?_, rfl⟩)
        exact RangeType.noConfusion
      | infinite negative => exact Or.inr (Or.inl rfl)
      | nan => exact Or.inl rfl
  | date =>
    obtain ⟨d, -, rfl⟩ := Option.map_eq_some_iff.mp h
    refine Or.inr (Or.inr ⟨.date d, rfl, rfl, Bound.isShort_of_type ?_, rfl⟩)
    exact RangeType.noConfusion
  | timestamptz =>
    obtain ⟨m, found, rfl⟩ := Option.map_eq_some_iff.mp h
    have same : (Bound.moment m).reread = .moment m :=
      congrArg Bound.moment (Moment.reread_eq_of_read found)
    refine Or.inr (Or.inr ⟨.moment m, rfl, rfl, Bound.isShort_of_type ?_, same⟩)
    exact RangeType.noConfusion

/-- A bound that was read as a value of a type is one. -/
theorem RangeType.holds_of_read {type : RangeType} {s : List Char} {offer : BoundOffer} {b : Bound}
    (read : BoundOffer.read? type s = some offer)
    (settled : BoundOffer.settle (some offer) = .ok (some b)) :
    type.holds b = true ∧ b.IsShort ∧ b.reread = b := by
  rcases BoundOffer.cases_of_read read with rfl | rfl | ⟨c, rfl, found⟩
  · cases settled
  · cases settled
  · cases (Bound.settle_toOffer (some c)).symm.trans settled
    exact found

theorem RangeType.holds_reread (type : RangeType) (b : Bound) :
    type.holds b.reread = type.holds b := by
  cases b <;> cases type <;> rfl

namespace SearchRange

variable {φ : Type}

/-- The bounds of the range are values of its type. -/
def Typed (r : SearchRange φ) : Prop :=
  ∀ b, r.lower = some b ∨ r.upper = some b → r.type.holds b = true

/-- The range can be had: some values for its bounds, its flags and its type are accepted. -/
def Accepted (r : SearchRange Value) : Prop :=
  ∃ lower upper lowerInclusive upperInclusive type,
    ofValues lower upper lowerInclusive upperInclusive type = .ok r

/-- No whole number in the range is too long to be written and read. -/
def IsShort (r : SearchRange φ) : Prop :=
  ∀ b, r.lower = some b ∨ r.upper = some b → b.IsShort

/-- The type that bounds have in common is the type of one of them. -/
theorem exists_bound_of_unify {l u : Option Bound} {type : RangeType}
    (h : RangeType.unify l u = .ok type) :
    (l = none ∧ u = none) ∨ ∃ b, (l = some b ∨ u = some b) ∧ b.type = type := by
  unfold RangeType.unify at h
  cases l with
  | none =>
    cases u with
    | none => exact Or.inl ⟨rfl, rfl⟩
    | some b =>
      cases h
      exact Or.inr ⟨b, Or.inr rfl, rfl⟩
  | some a =>
    refine Or.inr ?_
    cases u with
    | none =>
      cases h
      exact ⟨a, Or.inl rfl, rfl⟩
    | some b =>
      simp only [Option.map_some] at h
      -- The types that do not mix leave nothing to prove.
      cases ha : a.type <;> cases hb : b.type <;> simp only [ha, hb] at h <;> cases h <;>
        first
        | exact ⟨a, Or.inl rfl, ha⟩
        | exact ⟨b, Or.inr rfl, hb⟩

theorem typed_iff {r : SearchRange φ} {inferred : RangeType}
    (unified : RangeType.unify r.lower r.upper = .ok inferred) :
    r.Typed ↔ r.type = inferred ∨ (r.type = .numeric ∧ inferred = .int8) ∨
      (r.lower = none ∧ r.upper = none) := by
  have fits := fits_of_unify unified
  constructor
  · intro typed
    rcases exists_bound_of_unify unified with unbounded | ⟨b, hb, rfl⟩
    · exact Or.inr (Or.inr unbounded)
    · rcases RangeType.holds_iff.mp (typed b hb) with same | ⟨whole, numeric⟩
      · exact Or.inl same.symm
      · exact Or.inr (Or.inl ⟨numeric, whole⟩)
  · rintro (own | ⟨numeric, whole⟩ | ⟨openLower, openUpper⟩) b hb
    · exact RangeType.holds_iff.mpr (own ▸ fits b hb)
    · refine RangeType.holds_iff.mpr ?_
      rcases fits b hb with same | ⟨-, other⟩
      · exact Or.inr ⟨same.trans whole, numeric⟩
      · rw [whole] at other
        cases other
    · rw [openLower, openUpper] at hb
      rcases hb with hb | hb <;> cases hb

/-! ## Reading -/

/-- What a range was read from: a literal, whose bounds are read one by one. -/
theorem read_eq_ok {text : String} {type : RangeType} {r : SearchRange Bool}
    (h : read text (.named type) = .ok r) :
    ∃ t lower upper, RangeText.read? text = some t ∧
      RangeText.readBoundAs type t.lower = .ok lower ∧
      RangeText.readBoundAs type t.upper = .ok upper ∧
      build lower upper t.lowerInclusive t.upperInclusive (.named type) = .ok r := by
  unfold read at h
  split at h
  · next t parts =>
    obtain ⟨lower, foundLower, h⟩ := Except.bind_eq_ok.mp h
    obtain ⟨upper, foundUpper, h⟩ := Except.bind_eq_ok.mp h
    exact ⟨t, lower, upper, parts, foundLower, foundUpper, h⟩
  · cases h

/-- Whatever text is read as a range of a type: its bounds are values of the type, no whole number
among them is too long to be written, and all are what their own texts are read as. -/
theorem typed_of_read {text : String} {type : RangeType} {r : SearchRange Bool}
    (h : read text (.named type) = .ok r) :
    r.type = type ∧ r.Typed ∧ r.IsShort ∧ r.reread = r := by
  have held {bound : Option String} {offer : Option BoundOffer} {b : Bound}
      (found : RangeText.readBoundAs type bound = .ok offer)
      (settled : BoundOffer.settle offer = .ok (some b)) :
      type.holds b = true ∧ b.IsShort ∧ b.reread = b := by
    cases bound with
    | none =>
      cases found
      cases settled
    | some s =>
      rw [RangeText.readBoundAs] at found
      split at found
      · next read =>
        cases found
        exact RangeType.holds_of_read read settled
      · cases found
  obtain ⟨t, lower, upper, -, foundLower, foundUpper, built⟩ := read_eq_ok h
  obtain ⟨settledLower, settledUpper, ⟨inferred, -, asked⟩, -⟩ := build_cases built
  have own : r.type = type := by
    rcases asked with ⟨other, -⟩ | named
    · cases other
    · cases named
      rfl
  have bounds : ∀ b, r.lower = some b ∨ r.upper = some b →
      type.holds b = true ∧ b.IsShort ∧ b.reread = b := by
    rintro b (hb | hb)
    · rw [hb] at settledLower
      exact held foundLower settledLower
    · rw [hb] at settledUpper
      exact held foundUpper settledUpper
  have kept {bound : Option Bound}
      (hb : ∀ b, bound = some b → r.lower = some b ∨ r.upper = some b) :
      bound.map Bound.reread = bound := by
    cases bound with
    | none => rfl
    | some b => exact congrArg some (bounds b (hb b rfl)).2.2
  refine ⟨own, fun b hb => ?_, fun b hb => (bounds b hb).2.1, ?_⟩
  · rw [own]
    exact (bounds b hb).1
  · rw [reread, kept fun _ => Or.inl, kept fun _ => Or.inr]

theorem typed_reread {r : SearchRange φ} : r.reread.Typed ↔ r.Typed := by
  have bound {b c : Option Bound} :
      (∀ d, b.map Bound.reread = some d ∨ c.map Bound.reread = some d → r.type.holds d = true) ↔
        ∀ d, b = some d ∨ c = some d → r.type.holds d = true := by
    cases b <;> cases c <;> simp [RangeType.holds_reread, or_imp, forall_and]
  exact bound

section

variable {r : SearchRange Bool} {inferred : RangeType}
  (unified : RangeType.unify r.lower r.upper = .ok inferred)
  (lowerFlag : r.lowerInclusive = true → r.lower.isSome = true)
  (upperFlag : r.upperInclusive = true → r.upper.isSome = true) (short : r.IsShort)

include unified lowerFlag upperFlag short

/-- A range with bounds of its type is read from its text with the bounds that their texts are read
as, if these are in order. -/
theorem read_of_typed (typed : r.Typed) : read r.text (.named r.type) = checked r.reread := by
  rw [read, RangeText.read?_text]
  exact toRange_ofRange unified lowerFlag upperFlag short
    fun b hb => RangeType.holds_iff.mp (typed b hb)

/-- A range is read from its text as its own type, with the bounds that the texts of its bounds are
read as, exactly if these are in order and are values of that type. -/
theorem read_eq_reread_iff :
    read r.text (.named r.type) = .ok r.reread ↔
      r.Typed ∧ inverted? r.reread.lower r.reread.upper = none := by
  have checks := read_of_typed unified lowerFlag upperFlag short
  constructor
  · intro same
    have typed := typed_reread.mp (typed_of_read same).2.1
    rw [checks typed, checked_eq_ok_iff] at same
    exact ⟨typed, same.1⟩
  · rintro ⟨typed, ordered⟩
    rw [checks typed, checked_eq_ok_iff]
    exact ⟨ordered, rfl⟩

end

end SearchRange

/-- A literal of a range is decoded by reading its text as its type. -/
theorem Literal.decode_range (text : String) (type : RangeType) :
    (Literal.range text type).decode =
      ((SearchRange.read text (.named type)).mapError .range).map .ofRange := by
  have known : (member .rangeType RangeType.ofName? (.text type.name)).mapError
      DecodingError.misuse = .ok type := by
    rw [member, RangeType.ofName?_name]
    rfl
  rw [← SearchRange.ofLiteral_text, Literal.decode, Literal.kind, LiteralKind.decode]
  simp only [Literal.value, Literal.sqlType, known, bind, Except.bind]
  cases SearchRange.ofLiteral (.text text) (.named type) <;> rfl

namespace SearchRange

/-- An accepted range, with truth values for its flags, is what it was built as: a range with bounds
in order that have a common type. -/
theorem Accepted.exists_unified {r : SearchRange Value} (h : r.Accepted) :
    (∃ inferred, RangeType.unify r.lower r.upper = .ok inferred) ∧
      inverted? r.lower r.upper = none ∧
      (r.plain.lowerInclusive = true → r.lower.isSome = true) ∧
      (r.plain.upperInclusive = true → r.upper.isSome = true) := by
  obtain ⟨lower, upper, lowerInclusive, upperInclusive, type, hr⟩ := h
  obtain ⟨s, hs, rfl⟩ := Except.map_eq_ok.mp hr
  obtain ⟨-, -, ⟨inferred, unified, -⟩, ordered, lowerFlag, upperFlag⟩ := build_cases hs
  rw [plain_withFlags lowerFlag upperFlag]
  refine ⟨⟨inferred, unified⟩, ordered, ?_, ?_⟩
  · intro flag
    exact (Bool.and_eq_true_iff.mp (lowerFlag ▸ flag)).1
  · intro flag
    exact (Bool.and_eq_true_iff.mp (upperFlag ▸ flag)).1

theorem ofRange_injective {r s : SearchRange Bool} (h : Value.ofRange r = Value.ofRange s) :
    r = s := by
  have plain : (r.map Value.bool).plain = (s.map Value.bool).plain := by
    rw [Value.range.inj h]
  exact plain

/-- An accepted range, encoded and decoded, comes back with its moments as they are read, exactly if
its bounds are values of its type and are still in order. -/
theorem Accepted.decode_eq_iff {r : SearchRange Value} (h : r.Accepted) (short : r.IsShort) :
    (Literal.range r.plain.text r.type).decode = .ok (.ofRange r.plain.reread) ↔
      r.Typed ∧ inverted? r.reread.lower r.reread.upper = none := by
  obtain ⟨⟨inferred, unified⟩, -, lowerFlag, upperFlag⟩ := h.exists_unified
  have same : read r.plain.text (.named r.type) = .ok r.plain.reread ↔
      r.Typed ∧ inverted? r.reread.lower r.reread.upper = none :=
    read_eq_reread_iff (r := r.plain) unified lowerFlag upperFlag short
  rw [← same, Literal.decode_range, Except.map_eq_ok]
  constructor
  · rintro ⟨s, hs, equal⟩
    obtain rfl : s = r.plain.reread := ofRange_injective equal
    exact Except.mapError_eq_ok.mp hs
  · intro hs
    exact ⟨r.plain.reread, Except.mapError_eq_ok.mpr hs, rfl⟩

/-- Whatever values a range is built from: there is a type that all its bounds are values of. It is
the type of the range unless another one was asked for, and then it is replaced by that one without
regard to the bounds. The range comes back from its literal, with the moments that the texts of its
moments are read as, if and only if its bounds are values of the type that it ended up with and the
bounds that are read are in order. If its moments are what their texts are read as, it comes back as
it is if and only if its bounds are values of the type. That is the case if it is the inferred one,
or numeric over whole numbers, or if the range has no bounds. -/
theorem restored_iff_typed {lower upper lowerInclusive upperInclusive type : Value}
    {r : SearchRange Value}
    (h : ofValues lower upper lowerInclusive upperInclusive type = .ok r) (short : r.IsShort) :
    ∃ inferred, (∀ b, r.lower = some b ∨ r.upper = some b → inferred.holds b = true) ∧
      (type = .null → r.type = inferred ∧ r.Typed) ∧
      (∀ name, type = .text name → RangeType.ofName? name = some r.type) ∧
      (r.Typed ↔ r.type = inferred ∨ (r.type = .numeric ∧ inferred = .int8) ∨
        (r.lower = none ∧ r.upper = none)) ∧
      ∃ literal, (Value.range r).encode = .ok literal ∧
        (literal.decode = .ok (.ofRange r.plain.reread) ↔
          r.Typed ∧ inverted? r.reread.lower r.reread.upper = none) ∧
        ((∀ m, r.lower = some (.moment m) ∨ r.upper = some (.moment m) →
          Moment.read? m.text = some m) → (literal.decode = .ok (.ofRange r.plain) ↔ r.Typed)) := by
  have accepted : r.Accepted := ⟨lower, upper, lowerInclusive, upperInclusive, type, h⟩
  obtain ⟨s, hs, rfl⟩ := Except.map_eq_ok.mp h
  obtain ⟨-, -, ⟨inferred, unified, asked⟩, ordered, -⟩ := build_cases hs
  have typed := typed_iff (r := s.withFlags lowerInclusive upperInclusive) unified
  have restored := accepted.decode_eq_iff short
  refine ⟨inferred, ?_, ?_, ?_, typed, _, rfl, restored, ?_⟩
  · intro b hb
    exact RangeType.holds_iff.mpr (fits_of_unify unified b hb)
  · rintro rfl
    rcases asked with ⟨-, own⟩ | named
    · exact ⟨own, typed.mpr (Or.inl own)⟩
    · cases named
  · rintro name rfl
    rw [TypeRequest.ofValue] at asked
    split at asked
    · next t found =>
      rcases asked with ⟨other, -⟩ | named
      · cases other
      · cases named
        exact found
    · rcases asked with ⟨other, -⟩ | named
      · cases other
      · cases named
  · intro exact
    have bounds := reread_eq_self exact
    have plain : (s.withFlags lowerInclusive upperInclusive).plain.reread =
        (s.withFlags lowerInclusive upperInclusive).plain := reread_eq_self exact
    rw [plain, bounds] at restored
    rw [restored]
    exact and_iff_left ordered

/-- Whole numbers in a range that was asked to be numeric. -/
def wholeNumeric : SearchRange Value :=
  ⟨some (.number (.int (-3))), some (.number (.int 12)), .bool true, .bool true, .numeric⟩

theorem build_wholeNumeric :
    ofValues (.int (-3)) (.int 12) (.bool true) (.bool true) (.text "numrange") =
      .ok wholeNumeric := rfl

theorem typed_wholeNumeric : wholeNumeric.Typed := by
  rintro b (⟨⟨⟩⟩ | ⟨⟨⟩⟩) <;> rfl

theorem isShort_wholeNumeric : wholeNumeric.IsShort := by
  rintro b (⟨⟨⟩⟩ | ⟨⟨⟩⟩) n number
  · cases number
    decide
  · cases number
    decide

theorem whole_numbers_restored_as_numeric :
    ofValues (.int (-3)) (.int 12) (.bool true) (.bool true) (.text "numrange") =
        .ok wholeNumeric ∧
      wholeNumeric.IsShort ∧
      ∃ literal, (Value.range wholeNumeric).encode = .ok literal ∧
        literal.decode = .ok (.range wholeNumeric) := by
  refine ⟨build_wholeNumeric, isShort_wholeNumeric, ?_⟩
  obtain ⟨inferred, -, -, -, -, literal, encoded, -, restored⟩ :=
    restored_iff_typed build_wholeNumeric isShort_wholeNumeric
  exact ⟨literal, encoded, (restored (by rintro m (⟨⟨⟩⟩ | ⟨⟨⟩⟩))).mpr typed_wholeNumeric⟩

/-- The first day of a year, in place of a whole number or of a moment. -/
def newYear : Date := ⟨2024, 1, 1, by decide⟩

/-- A range of days is accepted as a range of whole numbers, and cannot be decoded; as a range of
moments it can, and becomes another one. -/
theorem days_are_taken_for_other_bounds :
    (∃ r literal, ofValues (.date newYear) .null (.bool true) (.bool false) (.text "int8range") =
        .ok r ∧ ¬ r.Typed ∧ (Value.range r).encode = .ok literal ∧
      literal.decode = .error (.range (.badBound "2024-01-01" .int8))) ∧
    ∃ r literal, ofValues (.date newYear) .null (.bool true) (.bool false) (.text "tstzrange") =
        .ok r ∧ ¬ r.Typed ∧ (Value.range r).encode = .ok literal ∧
      literal.decode = .ok (.range
        ⟨some (.moment ⟨newYear, 0, none, none, false, by decide, by decide⟩), none, .bool true,
          .bool false, .timestamptz⟩) := by
  have untyped (type : RangeType) (other : type.holds (.date newYear) = false) :
      ¬ (⟨some (.date newYear), none, .bool true, .bool false, type⟩ :
        SearchRange Value).Typed := by
    intro typed
    have held := typed _ (Or.inl rfl)
    rw [other] at held
    cases held
  refine ⟨⟨_, _, rfl, untyped _ rfl, rfl, ?_⟩, ⟨_, _, rfl, untyped _ rfl, rfl, ?_⟩⟩
  · rw [Literal.decode_range, read, RangeText.read?_text]
    rfl
  · rw [Literal.decode_range, read, RangeText.read?_text]
    rfl

end SearchRange

end SearchSql
