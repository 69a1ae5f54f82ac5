import SearchSql.Proofs.Calendar.Reading
import SearchSql.Proofs.Range.Text
import SearchSql.Proofs.Success
import SearchSql.Value.Access

/-!
# Ranges read back

A range is read back from its text without being told its type. The brackets and the comma part
the literal, for no bound has one of them (`RangeText.read?_text`). A bound shows by its look of
which type it is, and both together show the type that holds them (`RangeText.inferType_eq`). So
what is read is the range that was written, with the type that its bounds call for; but a moment
comes back without its zone, and the bounds are put in order anew (`SearchRange.read_text`).
-/

namespace SearchSql

open Number (looksWhole readBinary64?)

/-! ## Single bounds -/

namespace Bound

theorem bare_of_mem {b : Bound} {c : Char} (h : c ∈ b.text) :
    RangeText.isBare c = true ∧ RangeText.isGap c = false ∧ c ≠ Text.quotationMark := by
  have all : chars.all (fun c => RangeText.isBare c = true ∧ RangeText.isGap c = false ∧
      c ≠ Text.quotationMark) = true := by decide
  exact of_decide_eq_true (List.all_eq_true.mp all c (mem_chars h))

theorem tidy_text (b : Bound) : Number.tidy b.text = some b.text := by
  refine Number.tidy_eq_self_of fun c hc => ?_
  have all : chars.all (fun c => Number.plainDigits [c] = [c] ∧ Text.isNumberBlank c = false ∧
      c ≠ '_') = true := by decide
  exact of_decide_eq_true (List.all_eq_true.mp all c (mem_chars hc))

/-- Days and moments start with the digits of the year and a dash. -/
theorem exists_year {b : Bound} (h : b.type = .date ∨ b.type = .timestamptz) :
    ∃ year rest, b.text = padded 4 year ++ '-' :: rest := by
  cases b with
  | number n => cases n <;> rcases h with h | h <;> cases h
  | date d => exact ⟨d.year, _, rfl⟩
  | moment m =>
    refine ⟨m.date.year, padded 2 m.date.month ++ '-' :: (padded 2 m.date.day ++
      'T' :: (m.clockText ++ Moment.zoneText m.offset)), ?_⟩
    rw [text, Moment.text_eq_parts, Date.text]
    simp

theorem looksWhole_text (b : Bound) : looksWhole b.text = decide (b.type = .int8) := by
  have calendar (h : b.type = .date ∨ b.type = .timestamptz) : looksWhole b.text = false := by
    obtain ⟨year, rest, htext⟩ := exists_year h
    obtain ⟨c, digits, hyear⟩ := List.exists_cons_of_ne_nil (padded_ne_nil 4 year)
    have digit : c.isDigit = true := isDigit_of_mem_padded (hyear ▸ List.mem_cons_self)
    have stop : ¬ (c = '+' ∨ c = '-') := by
      rintro (rfl | rfl)
      · exact absurd digit (by decide)
      · exact absurd digit (by decide)
    apply Number.looksWhole_eq_false (c := '-') (by decide)
    rw [htext, hyear]
    simp [stop]
  cases b with
  | number n =>
    cases n with
    | int n => exact Number.looksWhole_intText n
    | real x => exact Number.looksWhole_finiteText x
  | date d => exact calendar (Or.inl rfl)
  | moment m => exact calendar (Or.inr rfl)

theorem isSome_readBinary64? (b : Bound) :
    (readBinary64? b.text).isSome = decide (b.type = .int8 ∨ b.type = .numeric) := by
  have calendar (h : b.type = .date ∨ b.type = .timestamptz) : readBinary64? b.text = none := by
    obtain ⟨year, rest, htext⟩ := exists_year h
    have tidied := b.tidy_text
    rw [htext] at tidied ⊢
    exact Number.readBinary64?_eq_none (padded_ne_nil 4 year) (fun _ => isDigit_of_mem_padded)
      tidied
  cases b with
  | number n =>
    cases n with
    | int n =>
      obtain ⟨x, hx⟩ := Number.exists_readBinary64?_intText n
      rw [text, Number.text, hx]
      rfl
    | real x =>
      rw [text, Number.text, Number.readBinary64?_finiteText]
      rfl
  | date d =>
    rw [calendar (Or.inl rfl)]
    rfl
  | moment m =>
    rw [calendar (Or.inr rfl)]
    rfl

theorem length_text_of_date {b : Bound} (h : b.type = .date) : b.text.length = 10 := by
  cases b with
  | number n => cases n <;> cases h
  | date d => exact d.length_text
  | moment m => cases h

theorem length_text_of_moment {b : Bound} (h : b.type = .timestamptz) : b.text.length ≠ 10 := by
  cases b with
  | number n => cases n <;> cases h
  | date d => cases h
  | moment m =>
    rw [text, Moment.text_eq_parts, List.length_append, List.length_cons, m.date.length_text]
    omega

/-- The offer that a bound is settled from. -/
def toOffer : Bound → BoundOffer
  | .number n => .number n
  | .date d => .date d
  | .moment m => .moment m

/-- The bound that the text of a bound is read as. -/
def reread : Bound → Bound
  | .moment m => .moment m.reread
  | b => b

theorem type_reread (b : Bound) : b.reread.type = b.type := by
  cases b <;> rfl

theorem settle_toOffer (bound : Option Bound) :
    BoundOffer.settle (bound.map toOffer) = .ok bound := by
  cases bound with
  | none => rfl
  | some b => cases b <;> rfl

/-- Whether a whole number is short enough to be written and read. -/
def IsShort (b : Bound) : Prop :=
  ∀ n, b = .number (.int n) → (Number.natText n.natAbs).length ≤ Number.maxDigits

/-- A bound is read from its text as a value of its own type, and a whole number also where any
number may stand. -/
theorem read?_text {b : Bound} {type : RangeType} (short : b.IsShort)
    (fits : b.type = type ∨ b.type = .int8 ∧ type = .numeric) :
    BoundOffer.read? type b.text = some b.reread.toOffer := by
  cases b with
  | number n =>
    cases n with
    | int n =>
      have worth : Number.readInt? (Number.intText n) = some n :=
        Number.readInt?_intText (short n rfl)
      rcases fits with rfl | ⟨-, rfl⟩
      · simp [BoundOffer.read?, type, text, Number.text, worth, reread, toOffer]
      · simp [BoundOffer.read?, text, Number.text, Number.looksWhole_intText, worth, reread,
          toOffer]
    | real x =>
      rcases fits with rfl | ⟨whole, -⟩
      · simp [BoundOffer.read?, type, text, Number.text, Number.looksWhole_finiteText,
          Number.readBinary64?_finiteText, BoundOffer.ofBinary64, reread, toOffer]
      · cases whole
  | date d =>
    rcases fits with rfl | ⟨whole, -⟩
    · simp [BoundOffer.read?, type, text, Date.read?_text, reread, toOffer]
    · cases whole
  | moment m =>
    rcases fits with rfl | ⟨whole, -⟩
    · simp [BoundOffer.read?, type, text, Moment.read?_text, reread, toOffer]
    · cases whole

end Bound

/-! ## Literals -/

namespace RangeText

/-- The literal of a range, taken apart. -/
def ofRange (r : SearchRange Bool) : RangeText :=
  ⟨r.lowerInclusive, r.lower.map fun b => String.ofList b.text,
    r.upper.map fun b => String.ofList b.text, r.upperInclusive⟩

/-- A bound ends where a character stands that no bound has. -/
theorem readBound?_boundText (bound : Option Bound) {c : Char} {rest : List Char}
    (other : isBare c = false) (unquoted : c ≠ Text.quotationMark) :
    readBound? (SearchRange.boundText bound ++ c :: rest) =
      some (bound.map fun b => String.ofList b.text, c :: rest) := by
  have stop : StopsAt isBare (c :: rest) := stopsAt_cons other
  have bare : ∀ d ∈ SearchRange.boundText bound, isBare d = true := by
    cases bound with
    | none => exact List.forall_mem_nil _
    | some b => exact fun d hd => (Bound.bare_of_mem hd).1
  have opening : ∀ t, SearchRange.boundText bound ++ c :: rest ≠ '\x22' :: t := by
    intro t ht
    cases bound with
    | none => exact unquoted (List.cons.inj ht).1
    | some b =>
      obtain ⟨d, more, htext⟩ := List.exists_cons_of_ne_nil b.text_ne_nil
      rw [SearchRange.boundText, htext] at ht
      exact (Bound.bare_of_mem (htext ▸ List.mem_cons_self)).2.2 (List.cons.inj ht).1
  unfold readBound?
  split
  · next t ht => exact absurd ht (opening t)
  · rw [takeWhile_part bare stop, dropWhile_part bare stop]
    cases bound with
    | none => rfl
    | some b =>
      have some_text : b.text.isEmpty = false := List.isEmpty_eq_false_iff.mpr b.text_ne_nil
      simp [SearchRange.boundText, some_text]

theorem skipGap_boundText (bound : Option Bound) {c : Char} {rest : List Char}
    (other : isGap c = false) :
    skipGap (SearchRange.boundText bound ++ c :: rest) =
      SearchRange.boundText bound ++ c :: rest := by
  have stop : StopsAt isGap (SearchRange.boundText bound ++ c :: rest) := by
    cases bound with
    | none => exact stopsAt_cons other
    | some b =>
      obtain ⟨d, more, htext⟩ := List.exists_cons_of_ne_nil b.text_ne_nil
      rw [SearchRange.boundText, htext]
      exact stopsAt_cons (Bound.bare_of_mem (htext ▸ List.mem_cons_self)).2.1
  exact dropWhile_part (List.forall_mem_nil _) stop

theorem trim_eq_self {first last : Char} (inner : List Char) (left : Text.isBlank first = false)
    (right : Text.isBlank last = false) :
    Text.trim (first :: (inner ++ [last])) = first :: (inner ++ [last]) := by
  have keep {c : Char} {s : List Char} (h : Text.isBlank c = false) :
      (c :: s).dropWhile Text.isBlank = c :: s := by
    rw [List.dropWhile_cons_of_neg (by simp [h])]
  have reversed : (first :: (inner ++ [last])).reverse = last :: (first :: inner).reverse := by
    simp
  rw [Text.trim, Text.trimBy, keep left, reversed, keep right, ← reversed, List.reverse_reverse]

theorem trim_literal (r : SearchRange Bool) : Text.trim r.literal = r.literal := by
  have left : Text.isBlank (if r.lowerInclusive then '[' else '(') = false := by
    split <;> decide
  have right : Text.isBlank (if r.upperInclusive then ']' else ')') = false := by
    split <;> decide
  have trimmed := trim_eq_self (SearchRange.boundText r.lower ++
    ',' :: SearchRange.boundText r.upper) left right
  rw [SearchRange.literal, List.cons_append, List.cons_append]
  exact trimmed

/-- The literal of a range is parted at its brackets and its comma. -/
theorem read?_text (r : SearchRange Bool) : read? r.text = some (ofRange r) := by
  have left (rest : List Char) :
      readBracket? '[' '(' ((if r.lowerInclusive then '[' else '(') :: rest) =
        some (r.lowerInclusive, rest) := by
    cases r.lowerInclusive <;> rfl
  have right : readBracket? ']' ')' [if r.upperInclusive then ']' else ')'] =
      some (r.upperInclusive, []) := by
    cases r.upperInclusive <;> rfl
  have closing : isBare (if r.upperInclusive then ']' else ')') = false ∧
      isGap (if r.upperInclusive then ']' else ')') = false ∧
      (if r.upperInclusive then ']' else ')') ≠ Text.quotationMark := by
    cases r.upperInclusive <;> decide
  have comma (rest : List Char) : skipGap (',' :: rest) = ',' :: rest := rfl
  have last : skipGap [if r.upperInclusive then ']' else ')'] =
      [if r.upperInclusive then ']' else ')'] := skipGap_boundText none closing.2.1
  rw [read?, SearchRange.text, String.toList_ofList, trim_literal, SearchRange.literal]
  simp only [List.cons_append, List.append_assoc, left, Option.bind_eq_bind, Option.bind_some,
    skipGap_boundText _ (show isGap ',' = false from rfl), comma,
    readBound?_boundText _ (show isBare ',' = false from rfl) (by decide), readComma?,
    skipGap_boundText _ closing.2.1, readBound?_boundText _ closing.1 closing.2.2, last, right,
    List.isEmpty_nil, if_true, ofRange]

theorem bounds_ofRange (r : SearchRange Bool) :
    (ofRange r).bounds = (r.lower.toList ++ r.upper.toList).map Bound.text := by
  cases hl : r.lower <;> cases hu : r.upper <;> simp [ofRange, bounds, hl, hu]

/-- The bounds look like the type that holds both of them. -/
theorem inferType_eq {r : SearchRange Bool} {type : RangeType}
    (h : RangeType.unify r.lower r.upper = .ok type) : (ofRange r).inferType = type := by
  rw [inferType, bounds_ofRange]
  simp only [List.all_map, Function.comp_def, Bound.looksWhole_text, Bound.isSome_readBinary64?]
  unfold RangeType.unify at h
  cases hl : r.lower with
  | none =>
    cases hu : r.upper with
    | none =>
      simp only [hl, hu] at h
      cases h
      rfl
    | some b =>
      simp only [hl, hu, Option.map_none, Option.map_some] at h
      cases h
      cases hb : b.type <;> simp [hb, Bound.length_text_of_date, Bound.length_text_of_moment]
  | some a =>
    cases hu : r.upper with
    | none =>
      simp only [hl, hu, Option.map_none, Option.map_some] at h
      cases h
      cases ha : a.type <;> simp [ha, Bound.length_text_of_date, Bound.length_text_of_moment]
    | some b =>
      simp only [hl, hu, Option.map_some] at h
      -- The types that do not mix leave nothing to prove, and the others are settled one by one.
      cases ha : a.type <;> cases hb : b.type <;> simp only [ha, hb] at h <;> cases h <;>
        simp [ha, hb, Bound.length_text_of_date, Bound.length_text_of_moment]

end RangeText

/-! ## Ranges -/

namespace SearchRange

/-- What a range was built from, in full: the bounds are what the offers are settled to, they have
a common type and are in order, and the request says whether that type is taken. -/
theorem build_cases {lower upper : Option BoundOffer} {lowerInclusive upperInclusive : Bool}
    {request : TypeRequest} {r : SearchRange Bool}
    (h : build lower upper lowerInclusive upperInclusive request = .ok r) :
    BoundOffer.settle lower = .ok r.lower ∧ BoundOffer.settle upper = .ok r.upper ∧
    (∃ inferred, RangeType.unify r.lower r.upper = .ok inferred ∧
      (request = .inferred ∧ r.type = inferred ∨ request = .named r.type)) ∧
    inverted? r.lower r.upper = none ∧
    r.lowerInclusive = (r.lower.isSome && lowerInclusive) ∧
    r.upperInclusive = (r.upper.isSome && upperInclusive) := by
  by_cases nanLower : lower = some .nan
  · rw [build, if_pos nanLower] at h
    cases h
  by_cases nanUpper : upper = some .nan
  · rw [build, if_neg nanLower, if_pos nanUpper] at h
    cases h
  rw [build, if_neg nanLower, if_neg nanUpper] at h
  obtain ⟨l, settledLower, h⟩ := Except.bind_eq_ok.mp h
  obtain ⟨u, settledUpper, h⟩ := Except.bind_eq_ok.mp h
  obtain ⟨inferred, unified, h⟩ := Except.bind_eq_ok.mp h
  cases ordered : inverted? l u with
  | some bounds =>
    rw [ordered] at h
    cases request <;> cases h
  | none =>
    rw [ordered] at h
    cases request with
    | inferred =>
      cases h
      exact ⟨settledLower, settledUpper, ⟨inferred, unified, Or.inl ⟨rfl, rfl⟩⟩, ordered, rfl, rfl⟩
    | named type =>
      cases h
      exact ⟨settledLower, settledUpper, ⟨inferred, unified, Or.inr rfl⟩, ordered, rfl, rfl⟩
    | unknown shown => cases h

/-- What a range was built from can be seen in it: its bounds are those that were offered, they
have a common type, and it is the type of the range unless another one was asked for. -/
theorem build_eq_ok {lower upper : Option BoundOffer} {lowerInclusive upperInclusive : Bool}
    {request : TypeRequest} {r : SearchRange Bool}
    (h : build lower upper lowerInclusive upperInclusive request = .ok r) :
    ∃ inferred, RangeType.unify r.lower r.upper = .ok inferred ∧
      (request = .inferred → r.type = inferred) ∧ inverted? r.lower r.upper = none ∧
      r.lowerInclusive = (r.lower.isSome && lowerInclusive) ∧
      r.upperInclusive = (r.upper.isSome && upperInclusive) := by
  obtain ⟨-, -, ⟨inferred, unified, asked⟩, ordered, lowerFlag, upperFlag⟩ := build_cases h
  refine ⟨inferred, unified, ?_, ordered, lowerFlag, upperFlag⟩
  rintro rfl
  rcases asked with ⟨-, own⟩ | named
  · exact own
  · exact absurd named TypeRequest.noConfusion

/-- The range, unless its bounds are in the wrong order. -/
def checked (r : SearchRange Bool) : Except RangeError (SearchRange Bool) :=
  match inverted? r.lower r.upper with
  | some (a, b) => .error (.inverted a b)
  | none => .ok r

theorem checked_eq_ok_iff {r s : SearchRange Bool} :
    r.checked = .ok s ↔ inverted? r.lower r.upper = none ∧ r = s := by
  unfold checked
  cases inverted? r.lower r.upper <;> simp

/-- Bounds that have a common type can be offered again, with any type; only their order counts. -/
theorem build_toOffer {l u : Option Bound} {inferred : RangeType}
    (unified : RangeType.unify l u = .ok inferred) (lowerInclusive upperInclusive : Bool)
    (type : RangeType) :
    build (l.map Bound.toOffer) (u.map Bound.toOffer) lowerInclusive upperInclusive
        (.named type) =
      checked ⟨l, u, l.isSome && lowerInclusive, u.isSome && upperInclusive, type⟩ := by
  have defined (bound : Option Bound) : bound.map Bound.toOffer ≠ some .nan := by
    cases bound with
    | none => exact (Option.some_ne_none _).symm
    | some b =>
      intro h
      cases b <;> cases h
  rw [build, if_neg (defined l), if_neg (defined u)]
  simp only [Bound.settle_toOffer, unified, bind, Except.bind, pure, Except.pure]
  rfl

/-- Each bound fits the type that holds both. -/
theorem fits_of_unify {l u : Option Bound} {type : RangeType}
    (h : RangeType.unify l u = .ok type) :
    ∀ b, l = some b ∨ u = some b → b.type = type ∨ b.type = .int8 ∧ type = .numeric := by
  unfold RangeType.unify at h
  rintro b (rfl | rfl)
  · cases u with
    | none =>
      cases h
      exact Or.inl rfl
    | some c =>
      simp only [Option.map_some] at h
      cases hb : b.type <;> cases hc : c.type <;> simp only [hb, hc] at h <;> cases h <;> simp
  · cases l with
    | none =>
      cases h
      exact Or.inl rfl
    | some a =>
      simp only [Option.map_some] at h
      cases ha : a.type <;> cases hb : b.type <;> simp only [ha, hb] at h <;> cases h <;> simp

/-- The range whose bounds are those that the texts of its bounds are read as. -/
def reread {φ : Type} (r : SearchRange φ) : SearchRange φ :=
  { r with lower := r.lower.map Bound.reread, upper := r.upper.map Bound.reread }

theorem unify_reread (l u : Option Bound) :
    RangeType.unify (l.map Bound.reread) (u.map Bound.reread) = RangeType.unify l u := by
  have types (bound : Option Bound) : (bound.map Bound.reread).map Bound.type =
      bound.map Bound.type := by
    cases bound with
    | none => rfl
    | some b => exact congrArg some b.type_reread
  simp only [RangeType.unify, types]

/-- The literal of a range is read as any type that can have its bounds. -/
theorem toRange_ofRange {r : SearchRange Bool} {inferred type : RangeType}
    (unified : RangeType.unify r.lower r.upper = .ok inferred)
    (lowerFlag : r.lowerInclusive = true → r.lower.isSome = true)
    (upperFlag : r.upperInclusive = true → r.upper.isSome = true)
    (short : ∀ b, r.lower = some b ∨ r.upper = some b → b.IsShort)
    (fits : ∀ b, r.lower = some b ∨ r.upper = some b →
      b.type = type ∨ b.type = .int8 ∧ type = .numeric) :
    (RangeText.ofRange r).toRange type = checked { r.reread with type } := by
  have bound {b : Option Bound} (hb : ∀ c, b = some c → r.lower = some c ∨ r.upper = some c) :
      RangeText.readBoundAs type (b.map fun c => String.ofList c.text) =
        .ok ((b.map Bound.reread).map Bound.toOffer) := by
    cases b with
    | none => rfl
    | some c =>
      have found := Bound.read?_text (short c (hb c rfl)) (fits c (hb c rfl))
      simp [RangeText.readBoundAs, String.toList_ofList, found]
  have lower : ((r.lower.map Bound.reread).isSome && r.lowerInclusive) = r.lowerInclusive := by
    rw [Option.isSome_map]
    cases hr : r.lowerInclusive with
    | false => exact Bool.and_false _
    | true => rw [lowerFlag hr]; rfl
  have upper : ((r.upper.map Bound.reread).isSome && r.upperInclusive) = r.upperInclusive := by
    rw [Option.isSome_map]
    cases hr : r.upperInclusive with
    | false => exact Bool.and_false _
    | true => rw [upperFlag hr]; rfl
  simp only [RangeText.toRange, RangeText.ofRange]
  rw [bound fun _ => Or.inl, bound fun _ => Or.inr]
  rw [← unify_reread] at unified
  simp only [bind, Except.bind, build_toOffer unified, lower, upper, reread]

/-- A range is read from its literal with the type that its bounds call for. -/
theorem read_text {r : SearchRange Bool} {inferred : RangeType}
    (unified : RangeType.unify r.lower r.upper = .ok inferred)
    (lowerFlag : r.lowerInclusive = true → r.lower.isSome = true)
    (upperFlag : r.upperInclusive = true → r.upper.isSome = true)
    (short : ∀ b, r.lower = some b ∨ r.upper = some b → b.IsShort) :
    read r.text .inferred = checked { r.reread with type := inferred } := by
  rw [read, RangeText.read?_text]
  simp only [RangeText.resolve, RangeText.inferType_eq unified]
  exact toRange_ofRange unified lowerFlag upperFlag short (fits_of_unify unified)

/-- The flags of a range from values are taken for what they are worth. -/
theorem plain_withFlags {r : SearchRange Bool} {lowerInclusive upperInclusive : Value}
    (lower : r.lowerInclusive = (r.lower.isSome && lowerInclusive.isTrue))
    (upper : r.upperInclusive = (r.upper.isSome && upperInclusive.isTrue)) :
    (r.withFlags lowerInclusive upperInclusive).plain = r := by
  obtain ⟨l, u, li, ui, type⟩ := r
  simp only [withFlags, plain, map, mk.injEq, true_and, and_true]
  simp only at lower upper
  constructor
  · rw [lower]
    cases l <;> rfl
  · rw [upper]
    cases u <;> rfl

end SearchRange

end SearchSql
