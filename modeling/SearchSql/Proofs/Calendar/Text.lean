import SearchSql.Calendar.Moment
import SearchSql.Number.RoundTrip
import SearchSql.Proofs.Text.Parting

/-!
# The texts of days and moments

The parts of a day or a moment can be read off its text. So no two days have the same text
(`Date.text_injective`), and two moments only if they differ in their zone or their fold alone
(`Moment.text_injective`).
-/

namespace SearchSql

theorem isDigit_of_mem_padded {width n : Nat} {c : Char} (h : c ∈ padded width n) :
    c.isDigit = true := by
  rcases List.mem_append.mp h with h | h
  · rw [List.eq_of_mem_replicate h]
    decide
  · exact Number.isDigit_of_mem_natText h

theorem padded_ne_nil (width n : Nat) : padded width n ≠ [] := by
  intro h
  exact Number.natText_ne_nil n (List.append_eq_nil_iff.mp h).2

theorem ofDigitChars_zeros (k : Nat) (s : List Char) :
    Nat.ofDigitChars 10 (List.replicate k '0' ++ s) 0 = Nat.ofDigitChars 10 s 0 := by
  induction k with
  | zero => rfl
  | succ k ih =>
    rw [List.replicate_succ, List.cons_append, Nat.ofDigitChars_cons]
    exact ih

theorem ofDigitChars_padded (width n : Nat) : Nat.ofDigitChars 10 (padded width n) 0 = n := by
  rw [padded, ofDigitChars_zeros]
  exact Nat.ofDigitChars_toDigits (by decide) (by decide)

/-- A padded number can be read where no digit follows it, whatever its width. -/
theorem padded_inj {width width' m n : Nat} {rest rest' : List Char}
    (hrest : StopsAt Char.isDigit rest) (hrest' : StopsAt Char.isDigit rest')
    (h : padded width m ++ rest = padded width' n ++ rest') : m = n ∧ rest = rest' := by
  obtain ⟨same, tails⟩ := part_inj (fun _ => isDigit_of_mem_padded)
    (fun _ => isDigit_of_mem_padded) hrest hrest' h
  have worth := congrArg (Nat.ofDigitChars 10 · 0) same
  simp only [ofDigitChars_padded] at worth
  exact ⟨worth, tails⟩

/-- The same where a further character comes first in the rest. -/
theorem padded_cons_inj {width width' m n : Nat} {c c' : Char} {rest rest' : List Char}
    (hc : c.isDigit = false) (hc' : c'.isDigit = false)
    (h : padded width m ++ c :: rest = padded width' n ++ c' :: rest') :
    m = n ∧ rest = rest' := by
  obtain ⟨same, tails⟩ := padded_inj (stopsAt_cons hc) (stopsAt_cons hc') h
  exact ⟨same, (List.cons.inj tails).2⟩

/-! ## Days -/

theorem Date.text_inj {d e : Date} {rest rest' : List Char} (hrest : StopsAt Char.isDigit rest)
    (hrest' : StopsAt Char.isDigit rest') (h : d.text ++ rest = e.text ++ rest') :
    d = e ∧ rest = rest' := by
  simp only [Date.text, List.append_assoc, List.cons_append] at h
  obtain ⟨year, h⟩ := padded_cons_inj (by decide) (by decide) h
  obtain ⟨month, h⟩ := padded_cons_inj (by decide) (by decide) h
  obtain ⟨day, tails⟩ := padded_inj hrest hrest' h
  cases d
  cases e
  cases year
  cases month
  cases day
  exact ⟨rfl, tails⟩

theorem Date.text_injective {d e : Date} (h : d.text = e.text) : d = e :=
  (Date.text_inj stopsAt_nil stopsAt_nil (congrArg (· ++ []) h)).1

/-- The characters of a day, of which the first is a digit. -/
theorem Date.mem_text {d : Date} {c : Char} (h : c ∈ d.text) : c = '-' ∨ c.isDigit = true := by
  simp only [Date.text, List.mem_append, List.mem_cons] at h
  rcases h with h | rfl | h | rfl | h
  · exact Or.inr (isDigit_of_mem_padded h)
  · exact Or.inl rfl
  · exact Or.inr (isDigit_of_mem_padded h)
  · exact Or.inl rfl
  · exact Or.inr (isDigit_of_mem_padded h)

theorem Date.dash_mem_tail (d : Date) : '-' ∈ d.text.tail := by
  obtain ⟨c, digits, hyear⟩ := List.exists_cons_of_ne_nil (padded_ne_nil 4 d.year)
  rw [Date.text, hyear]
  exact List.mem_append_right _ List.mem_cons_self

/-! ## Moments -/

namespace Moment

theorem stopsAt_fraction (micro : Nat) {rest : List Char} (h : StopsAt Char.isDigit rest) :
    StopsAt Char.isDigit (fractionText micro ++ rest) := by
  unfold fractionText
  split
  · exact h
  · exact stopsAt_cons (by decide)

/-- Neither a digit nor a point continues a fraction. -/
def EndsFraction (rest : List Char) : Prop := StopsAt (fun c => c.isDigit || c = '.') rest

theorem EndsFraction.stopsAt {rest : List Char} (h : EndsFraction rest) :
    StopsAt Char.isDigit rest := by
  intro c hc
  exact (Bool.or_eq_false_iff.mp (h c hc)).1

theorem fraction_inj {m n : Nat} {rest rest' : List Char} (hrest : EndsFraction rest)
    (hrest' : EndsFraction rest') (h : fractionText m ++ rest = fractionText n ++ rest') :
    m = n ∧ rest = rest' := by
  have nopoint {t u : List Char} (ht : EndsFraction t) : t ≠ '.' :: u := by
    rintro rfl
    have := ht '.' rfl
    simp at this
  unfold fractionText at h
  by_cases hm : m = 0
  · by_cases hn : n = 0
    · rw [if_pos hm, if_pos hn] at h
      exact ⟨hm.trans hn.symm, h⟩
    · rw [if_pos hm, if_neg hn] at h
      exact absurd h (nopoint hrest)
  · by_cases hn : n = 0
    · rw [if_neg hm, if_pos hn] at h
      exact absurd h.symm (nopoint hrest')
    · rw [if_neg hm, if_neg hn] at h
      exact padded_inj hrest.stopsAt hrest'.stopsAt (List.cons.inj h).2

/-- What stands behind the minutes of an offset. -/
def offsetSeconds (n : Nat) : List Char :=
  if n / 1000000 % 60 = 0 ∧ n % 1000000 = 0 then []
  else ':' :: padded 2 (n / 1000000 % 60) ++ fractionText (n % 1000000)

theorem offsetText_eq (o : Int) :
    offsetText o = (if o < 0 then '-' else '+') :: (padded 2 (o.natAbs / 3600000000) ++
      ':' :: (padded 2 (o.natAbs / 60000000 % 60) ++ offsetSeconds o.natAbs)) := by
  simp [offsetText, offsetSeconds]

theorem stopsAt_offsetSeconds (n : Nat) : StopsAt Char.isDigit (offsetSeconds n) := by
  unfold offsetSeconds
  split
  · exact stopsAt_nil
  · exact stopsAt_cons (by decide)

theorem offsetSeconds_inj {m n : Nat} (h : offsetSeconds m = offsetSeconds n) :
    m / 1000000 % 60 = n / 1000000 % 60 ∧ m % 1000000 = n % 1000000 := by
  unfold offsetSeconds at h
  by_cases hm : m / 1000000 % 60 = 0 ∧ m % 1000000 = 0
  · by_cases hn : n / 1000000 % 60 = 0 ∧ n % 1000000 = 0
    · omega
    · rw [if_pos hm, if_neg hn] at h
      cases h
  · by_cases hn : n / 1000000 % 60 = 0 ∧ n % 1000000 = 0
    · rw [if_neg hm, if_pos hn] at h
      cases h
    · rw [if_neg hm, if_neg hn, List.cons_append, List.cons_append] at h
      have tails := (List.cons.inj h).2
      rw [← List.append_nil (fractionText (m % 1000000)),
        ← List.append_nil (fractionText (n % 1000000))] at tails
      obtain ⟨seconds, fractions⟩ := padded_inj (stopsAt_fraction _ stopsAt_nil)
        (stopsAt_fraction _ stopsAt_nil) tails
      exact ⟨seconds, (fraction_inj stopsAt_nil stopsAt_nil fractions).1⟩

theorem offsetText_injective {o p : Int} (h : offsetText o = offsetText p) : o = p := by
  rw [offsetText_eq, offsetText_eq] at h
  obtain ⟨sign, h⟩ := List.cons.inj h
  obtain ⟨hours, h⟩ := padded_cons_inj (by decide) (by decide) h
  obtain ⟨minutes, h⟩ := padded_inj (stopsAt_offsetSeconds _) (stopsAt_offsetSeconds _) h
  obtain ⟨seconds, micros⟩ := offsetSeconds_inj h
  have size : o.natAbs = p.natAbs := by omega
  by_cases ho : o < 0
  · by_cases hp : p < 0
    · omega
    · rw [if_pos ho, if_neg hp] at sign
      exact absurd sign (by decide)
  · by_cases hp : p < 0
    · rw [if_neg ho, if_pos hp] at sign
      exact absurd sign (by decide)
    · omega

def zoneText : Option Int → List Char
  | none => []
  | some o => offsetText o

theorem endsFraction_zone (zone : Option Int) : EndsFraction (zoneText zone) := by
  cases zone with
  | none => exact stopsAt_nil
  | some o =>
    rw [zoneText, offsetText_eq]
    apply stopsAt_cons
    split <;> decide

theorem zoneText_injective {y z : Option Int} (h : zoneText y = zoneText z) : y = z := by
  cases y with
  | none =>
    cases z with
    | none => rfl
    | some p =>
      rw [zoneText, zoneText, offsetText_eq] at h
      cases h
  | some o =>
    cases z with
    | none =>
      rw [zoneText, zoneText, offsetText_eq] at h
      cases h
    | some p => exact congrArg some (offsetText_injective h)

theorem text_eq (m : Moment) :
    m.text = m.date.text ++ 'T' :: (padded 2 m.hour ++ ':' :: (padded 2 m.minute ++
      ':' :: (padded 2 m.second ++ (fractionText m.micro ++ zoneText m.offset)))) := by
  cases h : m.offset <;> simp [text, textWith, zoneText, h]

/-- What the text of a moment tells: the day, the clock and its offset. -/
def bare (m : Moment) : Moment := { m with zone := none, fold := false }

theorem text_injective {m n : Moment} (h : m.text = n.text) : m.bare = n.bare := by
  rw [text_eq, text_eq] at h
  obtain ⟨date, h⟩ := Date.text_inj (stopsAt_cons (by decide)) (stopsAt_cons (by decide)) h
  obtain ⟨hour, h⟩ := padded_cons_inj (by decide) (by decide) (List.cons.inj h).2
  obtain ⟨minute, h⟩ := padded_cons_inj (by decide) (by decide) h
  obtain ⟨second, h⟩ := padded_inj (stopsAt_fraction _ (endsFraction_zone _).stopsAt)
    (stopsAt_fraction _ (endsFraction_zone _).stopsAt) h
  obtain ⟨micro, h⟩ := fraction_inj (endsFraction_zone _) (endsFraction_zone _) h
  have clock : m.clock = n.clock := by
    unfold Moment.hour at hour
    unfold Moment.minute at minute
    unfold Moment.second at second
    unfold Moment.micro at micro
    omega
  have offset := zoneText_injective h
  cases m
  cases n
  cases date
  cases clock
  cases offset
  rfl

end Moment

end SearchSql
