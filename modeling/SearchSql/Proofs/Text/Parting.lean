import Mathlib.Data.List.Basic

/-!
# Parting texts

A text that consists of a part and a rest can be parted in one way only, if it is known of which
characters the part is made and that the rest begins with another one.
-/

namespace SearchSql

/-- The text does not go on with such a character, if it goes on at all. -/
def StopsAt (p : Char → Bool) (rest : List Char) : Prop := ∀ c ∈ rest.head?, p c = false

theorem stopsAt_nil {p : Char → Bool} : StopsAt p [] := fun _ h => nomatch h

theorem stopsAt_cons {p : Char → Bool} {c : Char} {rest : List Char} (h : p c = false) :
    StopsAt p (c :: rest) := by
  rintro d ⟨⟩
  exact h

theorem stopsAt_dropWhile (p : Char → Bool) (s : List Char) : StopsAt p (s.dropWhile p) := by
  intro c hc
  have stop := List.head?_dropWhile_not p s
  rw [hc] at stop
  exact stop

theorem takeWhile_part {p : Char → Bool} {part rest : List Char} (hpart : ∀ c ∈ part, p c = true)
    (hrest : StopsAt p rest) : (part ++ rest).takeWhile p = part := by
  rw [List.takeWhile_append_of_pos hpart]
  cases rest with
  | nil => simp
  | cons c rest =>
    have stop : p c = false := hrest c rfl
    rw [List.takeWhile_cons_of_neg (by simp [stop]), List.append_nil]

theorem dropWhile_part {p : Char → Bool} {part rest : List Char} (hpart : ∀ c ∈ part, p c = true)
    (hrest : StopsAt p rest) : (part ++ rest).dropWhile p = rest := by
  have cut := List.takeWhile_append_dropWhile (p := p) (l := part ++ rest)
  rw [takeWhile_part hpart hrest] at cut
  exact List.append_cancel_left cut

/-- Equal texts that are parted in this way have equal parts and equal rests. -/
theorem part_inj {p : Char → Bool} {part part' rest rest' : List Char}
    (hpart : ∀ c ∈ part, p c = true) (hpart' : ∀ c ∈ part', p c = true)
    (hrest : StopsAt p rest) (hrest' : StopsAt p rest')
    (h : part ++ rest = part' ++ rest') : part = part' ∧ rest = rest' := by
  have same : part = part' := by
    rw [← takeWhile_part hpart hrest, h, takeWhile_part hpart' hrest']
  subst same
  exact ⟨rfl, List.append_cancel_left h⟩

/-- The part is what comes before the first occurrence of a character. -/
theorem before_inj {c : Char} {part part' rest rest' : List Char} (hpart : c ∉ part)
    (hpart' : c ∉ part') (h : part ++ c :: rest = part' ++ c :: rest') :
    part = part' ∧ rest = rest' := by
  have other {t : List Char} (ht : c ∉ t) : ∀ d ∈ t, (d != c) = true := by
    intro d hd
    rw [bne_iff_ne]
    rintro rfl
    exact ht hd
  have stop (t : List Char) : StopsAt (· != c) (c :: t) := stopsAt_cons (by simp)
  obtain ⟨same, tails⟩ := part_inj (other hpart) (other hpart') (stop rest) (stop rest') h
  exact ⟨same, (List.cons.inj tails).2⟩

end SearchSql
