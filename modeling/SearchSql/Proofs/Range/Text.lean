import SearchSql.Proofs.Calendar.Text
import SearchSql.Proofs.Number.Text
import SearchSql.Range.Basic

/-!
# The texts of ranges

A bound shows of which type it is, and no comma occurs in it. So a range can be read off its
literal, but for its type and for the zones of its moments (`SearchRange.text_inj`).
-/

namespace SearchSql

namespace Bound

/-- The characters of bounds. -/
def chars : List Char := "0123456789-+.eET:".toList

theorem mem_chars_of_isDigit {c : Char} (h : c.isDigit = true) : c ∈ chars := by
  have all : Number.numeralChars ⊆ chars := by decide
  exact all (Number.mem_numeralChars_of_isDigit h)

theorem mem_chars_of_mem_date {d : Date} {c : Char} (h : c ∈ d.text) : c ∈ chars := by
  rcases Date.mem_text h with rfl | digit
  · decide
  · exact mem_chars_of_isDigit digit

theorem mem_chars_of_mem_padded {width n : Nat} {c : Char} (h : c ∈ padded width n) :
    c ∈ chars := mem_chars_of_isDigit (isDigit_of_mem_padded h)

theorem mem_chars_of_mem_fraction {micro : Nat} {c : Char} (h : c ∈ Moment.fractionText micro) :
    c ∈ chars := by
  unfold Moment.fractionText at h
  split at h
  · cases h
  · rcases List.mem_cons.mp h with rfl | h
    · decide
    · exact mem_chars_of_mem_padded h

theorem mem_chars_of_mem_zone {zone : Option Int} {c : Char} (h : c ∈ Moment.zoneText zone) :
    c ∈ chars := by
  cases zone with
  | none => cases h
  | some o =>
    rw [Moment.zoneText, Moment.offsetText_eq, Moment.offsetSeconds] at h
    simp only [List.mem_cons, List.mem_append] at h
    rcases h with rfl | h | rfl | h | h
    · split <;> decide
    · exact mem_chars_of_mem_padded h
    · decide
    · exact mem_chars_of_mem_padded h
    · split at h
      · cases h
      · simp only [List.mem_append, List.mem_cons] at h
        rcases h with (rfl | h) | h
        · decide
        · exact mem_chars_of_mem_padded h
        · exact mem_chars_of_mem_fraction h

theorem mem_chars {b : Bound} {c : Char} (h : c ∈ b.text) : c ∈ chars := by
  have numerals : Number.numeralChars ⊆ chars := by decide
  cases b with
  | number n =>
    cases n with
    | int n => exact numerals (Number.mem_numeralChars_of_mem_intText h)
    | real x => exact numerals ((Number.marked_finiteText x).chars c h)
  | date d => exact mem_chars_of_mem_date h
  | moment m =>
    rw [text, Moment.text_eq] at h
    simp only [List.mem_append, List.mem_cons] at h
    rcases h with h | rfl | h | rfl | h | rfl | h | h | h
    · exact mem_chars_of_mem_date h
    · decide
    · exact mem_chars_of_mem_padded h
    · decide
    · exact mem_chars_of_mem_padded h
    · decide
    · exact mem_chars_of_mem_padded h
    · exact mem_chars_of_mem_fraction h
    · exact mem_chars_of_mem_zone h

/-- The type that a text looks like: only moments have a `T`, only doubles a point or an exponent
without one, and of the others only days have a dash behind the first character. -/
def typeOfText (s : List Char) : RangeType :=
  if 'T' ∈ s then .timestamptz
  else if '.' ∈ s ∨ 'e' ∈ s then .numeric
  else if '-' ∈ s.tail then .date
  else .int8

theorem typeOfText_text (b : Bound) : typeOfText b.text = b.type := by
  have numeral : 'T' ∉ Number.numeralChars := by decide
  unfold typeOfText
  cases b with
  | moment m =>
    have hT : 'T' ∈ m.text := by
      rw [Moment.text_eq]
      exact List.mem_append_right _ List.mem_cons_self
    rw [text, if_pos hT]
    rfl
  | date d =>
    have other {c : Char} (dash : c ≠ '-') (digit : c.isDigit = false) : c ∉ d.text := by
      intro hc
      rcases Date.mem_text hc with h | h
      · exact dash h
      · rw [digit] at h
        cases h
    have unmarked : ¬ ('.' ∈ d.text ∨ 'e' ∈ d.text) :=
      not_or.mpr ⟨other (by decide) (by decide), other (by decide) (by decide)⟩
    rw [text, if_neg (other (by decide) (by decide)), if_neg unmarked, if_pos d.dash_mem_tail]
    rfl
  | number n =>
    cases n with
    | real x =>
      have marked := Number.marked_finiteText x
      have noT : 'T' ∉ Number.finiteText x := fun hc => numeral (marked.chars _ hc)
      rw [text, Number.text, if_neg noT, if_pos marked.mark]
      rfl
    | int n =>
      have noT : 'T' ∉ Number.intText n := fun hc =>
        numeral (Number.mem_numeralChars_of_mem_intText hc)
      have nodash : '-' ∉ (Number.intText n).tail := fun hc =>
        absurd (Number.isDigit_of_mem_tail hc) (by decide)
      rw [text, Number.text, if_neg noT, if_neg (Number.unmarked_intText n), if_neg nodash]
      rfl

/-- What the text of a bound tells: of a moment neither the zone nor the fold. -/
def bare : Bound → Bound
  | .moment m => .moment m.bare
  | b => b

theorem text_injective {a b : Bound} (h : a.text = b.text) : a.bare = b.bare := by
  have types : a.type = b.type := by rw [← typeOfText_text, h, typeOfText_text]
  cases a with
  | number m =>
    cases b with
    | number n =>
      cases m with
      | int m =>
        cases n with
        | int n => exact congrArg (fun k => number (.int k)) (Number.intText_injective h)
        | real y => cases types
      | real x =>
        cases n with
        | int n => cases types
        | real y => exact congrArg (fun z => number (.real z)) (Number.finiteText_injective h)
    | date e => cases m <;> cases types
    | moment n => cases m <;> cases types
  | date d =>
    cases b with
    | number n => cases n <;> cases types
    | date e => exact congrArg date (Date.text_injective h)
    | moment n => cases types
  | moment m =>
    cases b with
    | number n => cases n <;> cases types
    | date e => cases types
    | moment n => exact congrArg moment (Moment.text_injective h)

theorem text_ne_nil (b : Bound) : b.text ≠ [] := by
  cases b with
  | number n =>
    cases n with
    | int n => exact Number.intText_ne_nil n
    | real x => exact Number.finiteText_ne_nil x
  | date d =>
    intro h
    exact padded_ne_nil 4 d.year (List.append_eq_nil_iff.mp h).1
  | moment m =>
    intro h
    rw [text, Moment.text_eq] at h
    cases (List.append_eq_nil_iff.mp h).2

end Bound

namespace SearchRange

theorem comma_notMem_boundText (bound : Option Bound) : ',' ∉ boundText bound := by
  have foreign : ',' ∉ Bound.chars := by decide
  cases bound with
  | none => exact List.not_mem_nil
  | some b => exact fun h => foreign (Bound.mem_chars h)

theorem boundText_injective {a b : Option Bound} (h : boundText a = boundText b) :
    a.map Bound.bare = b.map Bound.bare := by
  cases a with
  | none =>
    cases b with
    | none => rfl
    | some b => exact absurd h.symm b.text_ne_nil
  | some a =>
    cases b with
    | none => exact absurd h a.text_ne_nil
    | some b => exact congrArg some (Bound.text_injective h)

/-- The range without the zones and the folds of its moments. -/
def bare {φ : Type} (r : SearchRange φ) : SearchRange φ :=
  { r with lower := r.lower.map Bound.bare, upper := r.upper.map Bound.bare }

/-- Two ranges of one type with the same literal are the same but for the zones. -/
theorem text_inj {r s : SearchRange Bool} (type : r.type = s.type) (h : r.text = s.text) :
    r.bare = s.bare := by
  have h : r.literal = s.literal := String.ofList_injective h
  simp only [literal, List.cons_append, List.append_assoc] at h
  obtain ⟨left, h⟩ := List.cons.inj h
  obtain ⟨lower, h⟩ := before_inj (comma_notMem_boundText _) (comma_notMem_boundText _) h
  obtain ⟨upper, right⟩ := List.append_inj' h rfl
  have lowerFlag : r.lowerInclusive = s.lowerInclusive := by
    cases hr : r.lowerInclusive <;> cases hs : s.lowerInclusive <;> simp [hr, hs] at left ⊢
  have upperFlag : r.upperInclusive = s.upperInclusive := by
    cases hr : r.upperInclusive <;> cases hs : s.upperInclusive <;> simp [hr, hs] at right ⊢
  have lower := boundText_injective lower
  have upper := boundText_injective upper
  simp only [bare, lower, upper, lowerFlag, upperFlag, type]

end SearchRange

end SearchSql
