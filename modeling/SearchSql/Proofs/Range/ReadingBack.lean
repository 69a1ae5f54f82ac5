import SearchSql.Proofs.Range.Reading
import SearchSql.Value.Equality

/-!
# Ranges that read back

A moment that is read from its own text has lost its zone, so it may not count as equal to what it
was, and two moments may be in another order. Of a range whose moments read back
(`SearchRange.ReadsBack`) the bounds stay in order and count as equal to what they were. So the text
of such a range can be read without a type, whatever values it was built from
(`SearchRange.read_text_of_values`).
-/

namespace SearchSql

namespace SearchRange

/-- What is assumed of the moments of a range: each counts as equal to the one that its text is read
as, and two of one zone, which are in order by their clocks, are so by their instants, by which they
are compared once they are read. -/
structure ReadsBack {φ : Type} (r : SearchRange φ) : Prop where
  same : ∀ m, r.lower = some (.moment m) ∨ r.upper = some (.moment m) →
    ∃ n, Moment.read? m.text = some n ∧ n.same m = true
  ordered : ∀ l u, r.lower = some (.moment l) → r.upper = some (.moment u) →
    l.sharesZone u = true → l.instant ≤ u.instant

/-- Moments that are exactly what their texts are read as read back: no zone sets their clocks. -/
theorem readsBack_of_exact {φ : Type} {r : SearchRange φ}
    (exact : ∀ m, r.lower = some (.moment m) ∨ r.upper = some (.moment m) →
      Moment.read? m.text = some m) : r.ReadsBack := by
  have unzoned {m : Moment} (bound : r.lower = some (.moment m) ∨ r.upper = some (.moment m)) :
      m.zone = none :=
    (Moment.reread_eq_self_iff.mp (Moment.reread_eq_of_read (exact m bound))).2.1
  constructor
  · intro m bound
    refine ⟨m, exact m bound, ?_⟩
    simp [Moment.same, Moment.sharesZone, Moment.comparable, Moment.dependsOnFold, unzoned bound]
  · intro l u lower upper shared
    rw [Moment.sharesZone, unzoned (Or.inl lower)] at shared
    cases shared

theorem ReadsBack.same_reread {φ : Type} {r : SearchRange φ} (h : r.ReadsBack) {m : Moment}
    (bound : r.lower = some (.moment m) ∨ r.upper = some (.moment m)) :
    m.reread.same m = true := by
  obtain ⟨n, read, same⟩ := h.same m bound
  cases m.read?_text.symm.trans read
  exact same

end SearchRange

namespace Moment

theorem not_sharesZone_reread (m n : Moment) : m.reread.sharesZone n = false := rfl

theorem instant_of_same_reread {m : Moment} (h : m.reread.same m = true) :
    m.reread.instant = m.instant := by
  rw [same, not_sharesZone_reread] at h
  simp only [Bool.false_eq_true, if_false, Bool.and_eq_true, beq_iff_eq] at h
  exact h.1.1.2

theorem comparable_reread (a b : Moment) : a.reread.comparable b.reread = a.comparable b := by
  simp [comparable, reread]

end Moment

namespace SearchRange

/-- Bounds that count as equal to those that are read are in order as these are. -/
theorem ReadsBack.ordered_reread {φ : Type} {r : SearchRange φ} (h : r.ReadsBack)
    (ordered : inverted? r.lower r.upper = none) :
    inverted? r.reread.lower r.reread.upper = none := by
  cases hl : r.lower with
  | none => simp [reread, hl, inverted?]
  | some a =>
    cases hu : r.upper with
    | none => simp [reread, hl, hu, inverted?]
    | some b =>
      have below : a.exceeds b = false := by
        rw [hl, hu] at ordered
        simpa [inverted?] using ordered
      have still : a.reread.exceeds b.reread = false := by
        cases a with
        | moment l =>
          cases b with
          | moment u =>
            have lower := Moment.instant_of_same_reread (h.same_reread (Or.inl hl))
            have upper := Moment.instant_of_same_reread (h.same_reread (Or.inr hu))
            have below : l.exceeds u = false := below
            show l.reread.exceeds u.reread = false
            rw [Moment.exceeds, Moment.not_sharesZone_reread, Moment.comparable_reread, lower,
              upper]
            rw [Moment.exceeds] at below
            cases shared : l.sharesZone u with
            | true =>
              have instants := h.ordered l u hl hu shared
              simp [Int.not_lt.mpr instants]
            | false =>
              rw [shared] at below
              exact below
          | _ => rfl
        | number n => cases b <;> exact below
        | date d => cases b <;> exact below
      simp [reread, hl, hu, inverted?, still]

theorem sameBound_reread {bound : Option Bound}
    (h : ∀ m, bound = some (.moment m) → m.reread.same m = true) :
    sameBound (bound.map Bound.reread) bound = true := by
  cases bound with
  | none => rfl
  | some b =>
    cases b with
    | number n => exact beq_self_eq_true n.exact
    | date d => exact beq_self_eq_true d
    | moment m => exact h m rfl

/-- A range whose moments are what they are read as is the same when it is read. -/
theorem reread_eq_self {φ : Type} {r : SearchRange φ}
    (h : ∀ m, r.lower = some (.moment m) ∨ r.upper = some (.moment m) →
      Moment.read? m.text = some m) : r.reread = r := by
  have bound {b : Option Bound} (hb : ∀ m, b = some (.moment m) → Moment.read? m.text = some m) :
      b.map Bound.reread = b := by
    cases b with
    | none => rfl
    | some b =>
      cases b with
      | moment m =>
        have same := Option.some.inj (m.read?_text.symm.trans (hb m rfl))
        exact congrArg (some ∘ Bound.moment) same
      | _ => rfl
  rw [reread, bound fun m hm => h m (Or.inl hm), bound fun m hm => h m (Or.inr hm)]

/-- Whatever values a range is built from: if its moments read back, the text that it is written as
can be read without a type. That gives bounds of the same types that count as equal, and the very
same bounds where each moment is exactly what its text is read as; such moments do read back
(`readsBack_of_exact`). It gives the truth of the flags, so the same flags where they are truth
values, and also the same type unless one was asked for. -/
theorem read_text_of_values {lower upper lowerInclusive upperInclusive type : Value}
    {r : SearchRange Value}
    (h : ofValues lower upper lowerInclusive upperInclusive type = .ok r)
    (short : ∀ b, r.lower = some b ∨ r.upper = some b → b.IsShort) (inverse : r.ReadsBack) :
    ∃ inferred, read r.plain.text .inferred = .ok { r.plain.reread with type := inferred } ∧
      sameBound r.reread.lower r.lower = true ∧ sameBound r.reread.upper r.upper = true ∧
      ((∀ m, r.lower = some (.moment m) ∨ r.upper = some (.moment m) →
        Moment.read? m.text = some m) → r.plain.reread = r.plain) ∧
      (type = .null → inferred = r.type) ∧
      ∀ b c, lowerInclusive = .bool b → upperInclusive = .bool c → r.plain.map .bool = r := by
  obtain ⟨s, hs, rfl⟩ := Except.map_eq_ok.mp h
  obtain ⟨inferred, unified, own, ordered, lowerFlag, upperFlag⟩ := build_eq_ok hs
  have plain := plain_withFlags lowerFlag upperFlag
  refine ⟨inferred, ?_, ?_, ?_, fun exact => reread_eq_self exact, ?_, ?_⟩
  · rw [plain]
    have text : read s.text .inferred = checked { s.reread with type := inferred } := by
      refine read_text unified ?_ ?_ short
      · intro flag
        exact (Bool.and_eq_true_iff.mp (lowerFlag ▸ flag)).1
      · intro flag
        exact (Bool.and_eq_true_iff.mp (upperFlag ▸ flag)).1
    rw [text, checked_eq_ok_iff]
    exact ⟨inverse.ordered_reread ordered, rfl⟩
  · exact sameBound_reread fun m hm => inverse.same_reread (Or.inl hm)
  · exact sameBound_reread fun m hm => inverse.same_reread (Or.inr hm)
  · rintro rfl
    exact (own rfl).symm
  · rintro b c rfl rfl
    rw [plain]
    obtain ⟨l, u, li, ui, type⟩ := s
    simp only at lowerFlag upperFlag
    subst lowerFlag upperFlag
    cases l <;> cases u <;> rfl

/-- A moment before the year 1000, by a clock that is behind by hours, seconds and microseconds. -/
def early : Moment :=
  ⟨⟨999, 12, 31, by decide⟩, 86399000001, some (-19815000002), none, false, by decide, by decide⟩

/-- A moment of a clock whose offset is not known. -/
def late : Moment := ⟨⟨2024, 2, 29, by decide⟩, 0, none, none, false, by decide, by decide⟩

theorem read_text_of_moments :
    ∃ r, ofValues (.moment early) (.moment late) (.bool true) (.bool true) .null = .ok r ∧
      r.plain.text = "[0999-12-31T23:59:59.000001-05:30:15.000002,2024-02-29T00:00:00]" ∧
      read r.plain.text .inferred = .ok r.plain := by
  have built : ofValues (.moment early) (.moment late) (.bool true) (.bool true) .null =
      .ok ⟨some (.moment early), some (.moment late), .bool true, .bool true, .timestamptz⟩ := by
    rfl
  refine ⟨_, built, by decide, ?_⟩
  have short : ∀ b, some (Bound.moment early) = some b ∨ some (Bound.moment late) = some b →
      b.IsShort := by
    rintro b (⟨⟨⟩⟩ | ⟨⟨⟩⟩) n number
    · cases number
    · cases number
  have exact : ∀ m, some (Bound.moment early) = some (.moment m) ∨
      some (Bound.moment late) = some (.moment m) → Moment.read? m.text = some m := by
    rintro m (⟨⟨⟩⟩ | ⟨⟨⟩⟩)
    · decide +kernel
    · decide +kernel
  obtain ⟨inferred, found, -, -, unchanged, own, -⟩ :=
    read_text_of_values built short (readsBack_of_exact exact)
  rw [found, unchanged exact, own rfl]
  rfl

end SearchRange

end SearchSql
