import SearchSql.Proofs.Calendar.Order
import SearchSql.Proofs.Literal.Encoding
import SearchSql.Proofs.Range.Typing

/-!
# Decoding

What a literal is decoded to (`Value.decode_encode`): the value that it was made from, but for a
tuple of texts, which comes back as a list, and for ranges. Of these it has to be known that their
bounds are values of their type. A flag comes back as the truth value that it counts as, and a
moment without its zone, so the range may be another one, or none if its bounds are then in the
wrong order (`SearchRange.decode_loses_zones_and_flags`).
-/

namespace SearchSql

/-- The value as a literal of it is decoded: with a list in place of a tuple, truth values in place
of the flags of a range, and moments as they are read from their texts, if they are in order. -/
def Value.restored : Value → Except RangeError Value
  | .tuple items => .ok (.list items)
  | .range r => r.plain.reread.checked.map .ofRange
  | v => .ok v

/-- What is asked of a range for its literal to be decoded: it can be had, its bounds are values of
its type, and its whole numbers are not too long to be written and read. -/
structure SearchRange.Restorable (r : SearchRange Value) : Prop where
  accepted : r.Accepted
  typed : r.Typed
  short : r.IsShort

theorem Literal.decode_textArray (items : List String) :
    (Literal.textArray items).decode = .ok (.list (items.map .text)) := rfl

namespace SearchRange

theorem ofRange_plain {r : SearchRange Value} {b c : Bool} (lower : r.lowerInclusive = .bool b)
    (upper : r.upperInclusive = .bool c) : Value.ofRange r.plain = .range r := by
  obtain ⟨l, u, li, ui, type⟩ := r
  cases lower
  cases upper
  rfl

theorem Restorable.decode_range {r : SearchRange Value} (h : r.Restorable) :
    (Literal.range r.plain.text r.type).decode =
      (r.plain.reread.checked.map Value.ofRange).mapError .range := by
  obtain ⟨⟨inferred, unified⟩, -, lowerFlag, upperFlag⟩ := h.accepted.exists_unified
  have read : read r.plain.text (.named r.type) = checked r.plain.reread :=
    read_of_typed (r := r.plain) unified lowerFlag upperFlag h.short h.typed
  rw [Literal.decode_range, read]
  cases r.plain.reread.checked <;> rfl

theorem sameValue_bool (b : Bool) : sameValue (.bool b) (.bool b) = true := by
  cases b <;> simp [sameValue, Value.worth?]

/-- A range whose moments read back is decoded, and what is decoded counts as equal to it. -/
theorem ReadsBack.exists_restored {r : SearchRange Value} (h : r.ReadsBack) (accepted : r.Accepted)
    {b c : Bool} (lower : r.lowerInclusive = .bool b) (upper : r.upperInclusive = .bool c) :
    (Value.range r).restored = .ok (.range r.reread) ∧ sameRange r.reread r = true := by
  have ordered := h.ordered_reread accepted.exists_unified.2.1
  have checks : r.plain.reread.checked = .ok r.plain.reread :=
    checked_eq_ok_iff.mpr ⟨ordered, rfl⟩
  constructor
  · rw [Value.restored, checks]
    exact congrArg Except.ok (ofRange_plain (r := r.reread) lower upper)
  · have same := sameBound_reread fun m hm => h.same_reread (Or.inl hm)
    have same' := sameBound_reread fun m hm => h.same_reread (Or.inr hm)
    obtain ⟨l, u, li, ui, type⟩ := r
    cases lower
    cases upper
    simp only [sameRange, reread, same, same', sameValue_bool, Bool.and_self]

end SearchRange

/-- Every value that can be encoded is decoded from its literal: texts, whole numbers, finite
doubles and truth values as they are, a list or a tuple of texts as the list of these texts, and a
range with bounds of its type as a range with the bounds that their texts are read as, the same type
and the truth of its flags; only if these bounds are in the wrong order there is none. If the flags
are truth values and the moments read back, there is a range, and it counts as equal; and every
value but a tuple comes back as it is, if the moments in a range are what their texts are read as.
-/
theorem Value.decode_encode {v : Value} {literal : Literal} (encoded : v.encode = .ok literal)
    (ranges : ∀ r, v = .range r → r.Restorable) :
    literal.decode = v.restored.mapError .range ∧
      (∀ r b c, v = .range r → r.lowerInclusive = .bool b → r.upperInclusive = .bool c →
        r.ReadsBack → literal.decode = .ok (.range r.reread) ∧ sameRange r.reread r = true) ∧
      ((∀ items, v ≠ .tuple items) →
        (∀ r, v = .range r → (∃ b c, r.lowerInclusive = .bool b ∧ r.upperInclusive = .bool c) ∧
          ∀ m, r.lower = some (.moment m) ∨ r.upper = some (.moment m) →
            Moment.read? m.text = some m) →
        literal.decode = .ok v) := by
  have decoded : literal.decode = v.restored.mapError .range := by
    cases encodes_of_encode encoded with
    | text s => rfl
    | int n => rfl
    | real x => rfl
    | bool b => rfl
    | range r text htype =>
      subst text htype
      exact (ranges r rfl).decode_range
    | list h =>
      subst h
      exact Literal.decode_textArray _
    | tuple h =>
      subst h
      exact Literal.decode_textArray _
  have equal : ∀ r b c, v = .range r → r.lowerInclusive = .bool b → r.upperInclusive = .bool c →
      r.ReadsBack → literal.decode = .ok (.range r.reread) ∧ sameRange r.reread r = true := by
    rintro r b c rfl lower upper back
    obtain ⟨restored, same⟩ := back.exists_restored (ranges r rfl).accepted lower upper
    rw [decoded, restored]
    exact ⟨rfl, same⟩
  refine ⟨decoded, equal, ?_⟩
  intro untupled exact
  cases v with
  | tuple items => exact absurd rfl (untupled items)
  | range r =>
    obtain ⟨⟨b, c, lower, upper⟩, moments⟩ := exact r rfl
    have found := (equal r b c rfl lower upper (SearchRange.readsBack_of_exact moments)).1
    rwa [SearchRange.reread_eq_self moments] at found
  | _ => exact decoded

theorem SearchRange.decode_wholeNumeric :
    (Value.range wholeNumeric).encode = .ok (.range "[-3,12]" .numeric) ∧
      wholeNumeric.Restorable ∧
      (Literal.range "[-3,12]" .numeric).decode = .ok (.range wholeNumeric) := by
  have encoded : (Value.range wholeNumeric).encode = .ok (.range "[-3,12]" .numeric) := by
    rfl
  have restorable : wholeNumeric.Restorable := by
    refine ⟨⟨_, _, _, _, _, build_wholeNumeric⟩, typed_wholeNumeric, isShort_wholeNumeric⟩
  refine ⟨encoded, restorable, ?_⟩
  obtain ⟨-, -, unchanged⟩ := Value.decode_encode encoded (by rintro r ⟨⟩; exact restorable)
  refine unchanged nofun ?_
  rintro r ⟨⟩
  exact ⟨⟨true, true, rfl, rfl⟩, by rintro m (⟨⟨⟩⟩ | ⟨⟨⟩⟩)⟩

/-- A range of moments of one zone that are in order by their clocks, but not by their instants. -/
def acrossRepeatedHour : SearchRange Value :=
  ⟨some (.moment (.inRepeatedHour 30 true)), some (.moment (.inRepeatedHour 40 false)), .bool true,
    .bool false, .timestamptz⟩

/-- A range from a moment that its clock shows twice. -/
def fromRepeatedHour : SearchRange Value :=
  ⟨some (.moment (.inRepeatedHour 30 false)), none, .bool true, .bool false, .timestamptz⟩

/-- A range with a text for a flag, which counts as true. -/
def flaggedByText : SearchRange Value :=
  ⟨some (.number (.int 1)), none, .text "no", .bool false, .int8⟩

/-- Some ranges that can be had, with bounds of the inferred type, do not come back: of two moments
of one zone that are read in the wrong order there is no range, a moment that its clock shows twice
counts as equal to none without its zone, and a flag comes back as a truth value. -/
theorem SearchRange.decode_loses_zones_and_flags :
    (ofValues (.moment (.inRepeatedHour 30 true)) (.moment (.inRepeatedHour 40 false)) (.bool true)
        (.bool false) .null = .ok acrossRepeatedHour ∧ acrossRepeatedHour.Typed ∧
      (Value.range acrossRepeatedHour).encode =
        .ok (.range "[2024-11-03T01:30:00-05:00,2024-11-03T01:40:00-04:00)" .timestamptz) ∧
      (Literal.range "[2024-11-03T01:30:00-05:00,2024-11-03T01:40:00-04:00)" .timestamptz).decode =
        .error (.range (.inverted (.moment (Moment.inRepeatedHour 30 true).reread)
          (.moment (Moment.inRepeatedHour 40 false).reread)))) ∧
    (ofValues (.moment (.inRepeatedHour 30 false)) .null (.bool true) (.bool false) .null =
        .ok fromRepeatedHour ∧ fromRepeatedHour.Typed ∧
      (Value.range fromRepeatedHour).encode =
        .ok (.range "[2024-11-03T01:30:00-04:00,)" .timestamptz) ∧
      (Literal.range "[2024-11-03T01:30:00-04:00,)" .timestamptz).decode =
        .ok (.range fromRepeatedHour.reread) ∧
      sameRange fromRepeatedHour.reread fromRepeatedHour = false) ∧
    (ofValues (.int 1) .null (.text "no") (.bool false) .null = .ok flaggedByText ∧
      flaggedByText.Typed ∧
      (Value.range flaggedByText).encode = .ok (.range "[1,)" .int8) ∧
      (Literal.range "[1,)" .int8).decode =
        .ok (.range { flaggedByText with lowerInclusive := .bool true }) ∧
      sameRange { flaggedByText with lowerInclusive := .bool true } flaggedByText = false) := by
  have across : acrossRepeatedHour.Typed := by
    rintro b (⟨⟨⟩⟩ | ⟨⟨⟩⟩) <;> rfl
  have fromHour : fromRepeatedHour.Typed := by
    rintro b (⟨⟨⟩⟩ | ⟨⟨⟩⟩)
    rfl
  have flagged : flaggedByText.Typed := by
    rintro b (⟨⟨⟩⟩ | ⟨⟨⟩⟩)
    rfl
  refine ⟨⟨rfl, across, rfl, ?_⟩, ⟨rfl, fromHour, rfl, ?_, ?_⟩, ⟨rfl, flagged, rfl, ?_, ?_⟩⟩
  · show (Literal.range acrossRepeatedHour.plain.text .timestamptz).decode = _
    rw [Literal.decode_range, read, RangeText.read?_text]
    rfl
  · show (Literal.range fromRepeatedHour.plain.text .timestamptz).decode = _
    rw [Literal.decode_range, read, RangeText.read?_text]
    rfl
  · rw [fromRepeatedHour, reread, sameRange]
    rfl
  · show (Literal.range flaggedByText.plain.text .int8).decode = _
    rw [Literal.decode_range, read, RangeText.read?_text]
    rfl
  · rw [flaggedByText, sameRange]
    simp [sameBound, Bound.same, sameValue, Value.worth?, Value.number?]

end SearchSql
