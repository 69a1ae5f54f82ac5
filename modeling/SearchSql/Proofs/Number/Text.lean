import Mathlib.Data.Bool.AllAny
import Mathlib.Data.List.Basic
import Mathlib.Data.List.TakeWhile
import Mathlib.Data.Nat.Digits.Defs
import SearchSql.Number.RoundTrip
import SearchSql.Proofs.Text.Parting

/-!
# The texts of numbers

Which characters a printed number has, and that it can be told from any other: a whole number is a
row of digits with a sign at most, a double shows a point or an exponent (`marked_finiteText`).
-/

namespace SearchSql.Number

theorem natText_injective {m n : Nat} (h : natText m = natText n) : m = n := by
  have hm := natOf?_natText m
  rw [h, natOf?_natText n] at hm
  exact (Option.some.inj hm).symm

theorem dash_notMem_natText (n : Nat) : '-' ∉ natText n := by
  intro h
  exact absurd (isDigit_of_mem_natText h) (by decide)

theorem intText_injective {m n : Int} (h : intText m = intText n) : m = n := by
  unfold intText at h
  by_cases hm : m < 0
  · by_cases hn : n < 0
    · rw [if_pos hm, if_pos hn] at h
      have size := natText_injective (List.cons.inj h).2
      omega
    · rw [if_pos hm, if_neg hn] at h
      exact absurd (h ▸ List.mem_cons_self) (dash_notMem_natText n.natAbs)
  · by_cases hn : n < 0
    · rw [if_neg hm, if_pos hn] at h
      exact absurd (h ▸ List.mem_cons_self) (dash_notMem_natText m.natAbs)
    · rw [if_neg hm, if_neg hn] at h
      have size := natText_injective h
      omega

theorem finiteText_injective {x y : Finite64} (h : finiteText x = finiteText y) : x = y := by
  have hx := readBinary64?_finiteText x
  rw [h, readBinary64?_finiteText y] at hx
  cases hx
  rfl

theorem intText_ne_nil (n : Int) : intText n ≠ [] := by
  unfold intText
  split
  · exact List.cons_ne_nil _ _
  · exact natText_ne_nil _

/-- Behind the first character of a whole number there are only digits. -/
theorem isDigit_of_mem_tail {n : Int} {c : Char} (h : c ∈ (intText n).tail) :
    c.isDigit = true := by
  unfold intText at h
  split at h
  · exact isDigit_of_mem_natText h
  · exact isDigit_of_mem_natText (List.mem_of_mem_tail h)

theorem eq_or_isDigit_of_mem {n : Int} {c : Char} (h : c ∈ intText n) :
    c = '-' ∨ c.isDigit = true := by
  unfold intText at h
  split at h
  · rcases List.mem_cons.mp h with rfl | h
    · exact Or.inl rfl
    · exact Or.inr (isDigit_of_mem_natText h)
  · exact Or.inr (isDigit_of_mem_natText h)

theorem mem_numeralChars_of_mem_intText {n : Int} {c : Char} (h : c ∈ intText n) :
    c ∈ numeralChars := by
  rcases eq_or_isDigit_of_mem h with rfl | digit
  · decide
  · exact mem_numeralChars_of_isDigit digit

/-! ## Lengths -/

theorem ofDigitChars_lt {s : List Char} (digits : ∀ c ∈ s, c.isDigit = true) :
    Nat.ofDigitChars 10 s 0 < 10 ^ s.length := by
  induction s with
  | nil => decide
  | cons c s ih =>
    obtain ⟨digit, rest⟩ := List.forall_mem_cons.mp digits
    have later := ih rest
    have value : c.toNat - '0'.toNat ≤ 9 := by
      simp only [Char.isDigit, Bool.and_eq_true, decide_eq_true_eq] at digit
      have last : c.toNat ≤ 57 := UInt32.le_iff_toNat_le.mp digit.2
      have zero : '0'.toNat = 48 := rfl
      omega
    have first := Nat.mul_le_mul_left (10 ^ s.length) value
    rw [Nat.ofDigitChars_cons, Nat.ofDigitChars_eq_ofDigitChars_zero, Nat.mul_zero, Nat.zero_add,
      List.length_cons, Nat.pow_succ]
    omega

/-- Zeros in front may be lost, and nothing is added. -/
theorem length_natText_le {s : List Char} {n : Nat} (h : natOf? s = some n) :
    (natText n).length ≤ s.length := by
  unfold natOf? at h
  split at h
  · next row =>
    cases h
    exact Nat.toDigits_length 10 _ _ (List.length_pos_of_ne_nil row.1)
      (ofDigitChars_lt (List.all_eq_true.mp row.2))
  · cases h

/-- No whole number is read that is too long to be written. -/
theorem length_natText_of_readInt? {s : List Char} {n : Int} (h : readInt? s = some n) :
    (natText n.natAbs).length ≤ maxDigits := by
  obtain ⟨t, -, h⟩ := Option.bind_eq_some_iff.mp h
  obtain ⟨m, worth, h⟩ := Option.bind_eq_some_iff.mp h
  obtain ⟨short, signed⟩ := Option.ite_none_right_eq_some.mp h
  have same : n.natAbs = m := by
    cases signed
    split <;> omega
  rw [same]
  exact (length_natText_le worth).trans short

/-! ## Doubles -/

/-- The text of a number that shows a point or an exponent. -/
structure Marked (s : List Char) : Prop where
  chars : ∀ c ∈ s, c ∈ numeralChars
  mark : '.' ∈ s ∨ 'e' ∈ s

theorem isDigit_of_mem_significant {n : Nat} {c : Char} (h : c ∈ significantDigits n) :
    c.isDigit = true := by
  have kept : (significantDigits n).Sublist (natText n) := by
    have inner := (List.dropWhile_sublist (· = '0') (l := (natText n).reverse)).reverse
    rwa [List.reverse_reverse] at inner
  exact isDigit_of_mem_natText (kept.subset h)

theorem mem_numeralChars_of_mem_pointed {digits : List Char} {c : Char} (h : c ∈ pointed digits)
    (hd : ∀ d ∈ digits, d.isDigit = true) : c ∈ numeralChars := by
  unfold pointed at h
  split at h
  · cases h
  · exact mem_numeralChars_of_isDigit (hd c h)
  · next d rest _ =>
    rcases List.mem_cons.mp h with rfl | h
    · exact mem_numeralChars_of_isDigit (hd c List.mem_cons_self)
    · rcases List.mem_cons.mp h with rfl | h
      · decide
      · exact mem_numeralChars_of_isDigit (hd c (List.mem_cons_of_mem d h))

theorem mem_numeralChars_of_mem_exponent {e : Int} {c : Char} (h : c ∈ exponentText e) :
    c ∈ numeralChars := by
  rcases List.mem_cons.mp h with rfl | h
  · split <;> decide
  · rcases List.mem_append.mp h with h | h
    · rw [List.eq_of_mem_replicate h]
      decide
    · exact mem_numeralChars_of_isDigit (isDigit_of_mem_natText h)

/-- Each of the three notations has a mark: an exponent, or a point among the digits. -/
theorem marked_write (l : Layout) {digits : List Char} (top : Int)
    (hd : ∀ d ∈ digits, d.isDigit = true) : Marked (l.write digits top) := by
  have digit {c : Char} (h : c ∈ digits) := mem_numeralChars_of_isDigit (hd c h)
  have zero {c : Char} {n : Nat} (h : c ∈ List.replicate n '0') : c ∈ numeralChars := by
    rw [List.eq_of_mem_replicate h]
    decide
  unfold Layout.write
  split
  · constructor
    · intro c hc
      rcases List.mem_append.mp hc with hc | hc
      · exact mem_numeralChars_of_mem_pointed hc hd
      · rcases List.mem_cons.mp hc with rfl | hc
        · decide
        · exact mem_numeralChars_of_mem_exponent hc
    · exact Or.inr (List.mem_append_right _ List.mem_cons_self)
  · split
    · constructor
      · refine List.forall_mem_cons.mpr ⟨by decide, List.forall_mem_cons.mpr ⟨by decide, ?_⟩⟩
        intro c hc
        rcases List.mem_append.mp hc with hc | hc
        · exact zero hc
        · exact digit hc
      · exact Or.inl (List.mem_cons_of_mem _ List.mem_cons_self)
    · constructor
      · intro c hc
        rcases List.mem_append.mp hc with hc | hc
        · rcases List.mem_append.mp hc with hc | hc
          · exact digit (List.mem_of_mem_take hc)
          · exact zero hc
        · rcases List.mem_cons.mp hc with rfl | hc
          · decide
          · split at hc
            · rw [List.mem_singleton.mp hc]
              decide
            · exact digit (List.mem_of_mem_drop hc)
      · exact Or.inl (List.mem_append_right _ List.mem_cons_self)

theorem marked_of_mem_candidates {units : Nat} {t : List Char} (h : t ∈ candidates units) :
    Marked t := by
  obtain ⟨i, -, ht⟩ := List.mem_flatMap.mp h
  obtain ⟨⟨digits, exponent⟩, -, rfl⟩ := List.mem_map.mp ht
  exact marked_write _ _ fun d hd => isDigit_of_mem_significant hd

theorem marked_exactText (units : Nat) : Marked (exactText units) := by
  have exponent : "e-1074".toList.all numeralChars.contains = true := by decide
  constructor
  · intro c hc
    rcases List.mem_append.mp hc with hc | hc
    · exact mem_numeralChars_of_isDigit (isDigit_of_mem_natText hc)
    · exact List.contains_iff_mem.mp (List.all_eq_true.mp exponent c hc)
  · exact Or.inr (List.mem_append_right _ (by decide))

theorem Marked.signed {s : List Char} (h : Marked s) (negative : Bool) :
    Marked (signed negative s) := by
  cases negative with
  | false => exact h
  | true =>
    refine ⟨List.forall_mem_cons.mpr ⟨by decide, h.chars⟩, ?_⟩
    exact h.mark.imp (List.mem_cons_of_mem _) (List.mem_cons_of_mem _)

/-- The text of a finite double shows that it is no whole number. -/
theorem marked_finiteText (x : Finite64) : Marked (finiteText x) := by
  unfold finiteText
  split
  · have zero : Marked "0.0".toList := by
      constructor
      · exact List.all_iff_forall_prop.mp (by decide)
      · exact Or.inl (by decide)
    exact zero.signed x.negative
  · dsimp only
    split
    · next t ht =>
      obtain ⟨s, hs, rfl⟩ := List.mem_map.mp (List.mem_of_find?_eq_some ht)
      exact (marked_of_mem_candidates hs).signed x.negative
    · exact (marked_exactText x.units).signed x.negative

theorem finiteText_ne_nil (x : Finite64) : finiteText x ≠ [] := by
  rcases (marked_finiteText x).mark with mark | mark
  · exact List.ne_nil_of_mem mark
  · exact List.ne_nil_of_mem mark

theorem unmarked_intText (n : Int) : ¬ ('.' ∈ intText n ∨ 'e' ∈ intText n) := by
  rintro (h | h)
  · rcases eq_or_isDigit_of_mem h with h | h <;> cases h
  · rcases eq_or_isDigit_of_mem h with h | h <;> cases h

theorem isDigitLike_of_isDigit {c : Char} (h : c.isDigit = true) :
    Text.isDigitLike c = true := by
  have all : numeralChars.all (fun c => c.isDigit = true → Text.isDigitLike c = true) = true := by
    decide
  exact of_decide_eq_true (List.all_eq_true.mp all c (mem_numeralChars_of_isDigit h)) h

theorem looksWhole_intText (n : Int) : looksWhole (intText n) = true := by
  obtain ⟨c, rest, hdigits⟩ := List.exists_cons_of_ne_nil (natText_ne_nil n.natAbs)
  have first : c.isDigit = true := isDigit_of_mem_natText (hdigits ▸ List.mem_cons_self)
  have stop : ¬ (c = '+' ∨ c = '-') := by
    rintro (rfl | rfl)
    · exact absurd first (by decide)
    · exact absurd first (by decide)
  have digits : ∀ d ∈ c :: rest, Text.isDigitLike d = true := by
    intro d hd
    exact isDigitLike_of_isDigit (isDigit_of_mem_natText (hdigits ▸ hd))
  have unsigned : (intText n).dropWhile (fun c => c = '+' || c = '-') = c :: rest := by
    unfold intText
    split <;> simp [hdigits, stop]
  rw [looksWhole, unsigned, List.all_eq_true.mpr digits]
  rfl

/-- A character that stands for no digit shows that a text is no whole number, wherever no sign
could stand for it. -/
theorem looksWhole_eq_false {s : List Char} {c : Char} (other : Text.isDigitLike c = false)
    (h : c ∈ s.dropWhile fun c => c = '+' || c = '-') : looksWhole s = false := by
  rw [looksWhole, Bool.and_eq_false_iff]
  refine Or.inr (Bool.eq_false_iff.mpr fun digits => ?_)
  rw [List.all_eq_true.mp digits c h] at other
  cases other

theorem looksWhole_finiteText (x : Finite64) : looksWhole (finiteText x) = false := by
  have kept {c : Char} (mark : c ≠ '+' ∧ c ≠ '-') (hc : c ∈ finiteText x) :
      c ∈ (finiteText x).dropWhile fun c => c = '+' || c = '-' := by
    rw [← List.takeWhile_append_dropWhile (p := fun c => c = '+' || c = '-')
      (l := finiteText x)] at hc
    rcases List.mem_append.mp hc with hc | hc
    · have sign := List.mem_takeWhile_imp hc
      simp [mark] at sign
    · exact hc
  rcases (marked_finiteText x).mark with mark | mark
  · exact looksWhole_eq_false (by decide) (kept (by decide) mark)
  · exact looksWhole_eq_false (by decide) (kept (by decide) mark)

/-- What starts with a digit is no name of a number. -/
theorem map_toLower_ne_name {c : Char} {rest : List Char} (digit : c.isDigit = true)
    {name : String} (h : name ∈ ["inf", "infinity", "nan"]) :
    String.ofList ((c :: rest).map Char.toLower) ≠ name := by
  intro same
  have first : name.toList.head? = some c := by
    rw [← same, String.toList_ofList, List.map_cons, toLower_of_isDigit digit, List.head?_cons]
  have letters : (["inf", "infinity", "nan"].all fun name =>
      name.toList.head?.all fun c => ! c.isDigit) = true := by
    decide
  have letter := List.all_eq_true.mp letters name h
  rw [first, Option.all_some, digit] at letter
  cases letter

/-- A text that starts with a digit is read as a numeral. -/
theorem readBinary64?_of_unsigned {s : List Char} {c : Char} {rest : List Char}
    (tidied : tidy s = some s) {negative : Bool} (parts : splitSign s = (negative, c :: rest))
    (digit : c.isDigit = true) :
    readBinary64? s = (decimalOf? negative (c :: rest)).map Decimal.toBinary64 := by
  have named {name : String} (h : name ∈ ["inf", "infinity", "nan"]) :
      String.ofList ((c :: rest).map Char.toLower) ≠ name := map_toLower_ne_name digit h
  rw [readBinary64?, tidied]
  simp only [Option.bind_eq_bind, Option.bind_some, parts]
  rw [if_neg (not_or.mpr ⟨named (by simp), named (by simp)⟩), if_neg (named (by simp))]

/-- A whole number of any size is read as a double, though perhaps as an infinite one. -/
theorem exists_readBinary64?_intText (n : Int) : ∃ x, readBinary64? (intText n) = some x := by
  obtain ⟨c, rest, hdigits⟩ := List.exists_cons_of_ne_nil (natText_ne_nil n.natAbs)
  have digits : ∀ d ∈ c :: rest, d.isDigit = true := by
    intro d hd
    exact isDigit_of_mem_natText (hdigits ▸ hd)
  have parts : splitSign (intText n) = (decide (n < 0), c :: rest) := by
    rw [← hdigits]
    unfold intText
    split
    · next negative => simp [splitSign, negative]
    · next positive =>
      have unsigned := splitSign_natText n.natAbs []
      rw [List.append_nil] at unsigned
      simp [unsigned, positive]
  have numeral : decimalOf? (decide (n < 0)) (c :: rest) =
      some ⟨decide (n < 0), n.natAbs, 0⟩ := by
    have worth := natOf?_natText n.natAbs
    rw [hdigits] at worth
    rw [decimalOf?, List.takeWhile_eq_self_iff.mpr digits, List.dropWhile_eq_nil_iff.mpr digits]
    simp [splitFraction, exponentOf?, worth]
  refine ⟨Decimal.toBinary64 ⟨decide (n < 0), n.natAbs, 0⟩, ?_⟩
  rw [readBinary64?_of_unsigned (tidy_eq_self fun _ => mem_numeralChars_of_mem_intText) parts
    (digits c List.mem_cons_self), numeral]
  rfl

/-- Behind the digits of a number, there is no dash. -/
theorem readBinary64?_eq_none {digits rest : List Char} (some_digits : digits ≠ [])
    (hdigits : ∀ c ∈ digits, c.isDigit = true)
    (tidied : tidy (digits ++ '-' :: rest) = some (digits ++ '-' :: rest)) :
    readBinary64? (digits ++ '-' :: rest) = none := by
  have stop : StopsAt Char.isDigit ('-' :: rest) := stopsAt_cons (by decide)
  have numeral (negative : Bool) : decimalOf? negative (digits ++ '-' :: rest) = none := by
    rw [decimalOf?, takeWhile_part hdigits stop, dropWhile_part hdigits stop]
    simp [splitFraction, exponentOf?]
  obtain ⟨c, more, rfl⟩ := List.exists_cons_of_ne_nil some_digits
  have digit := hdigits c List.mem_cons_self
  rw [List.cons_append] at tidied numeral ⊢
  rw [readBinary64?_of_unsigned tidied (splitSign_of_isDigit digit) digit, numeral]
  rfl

end SearchSql.Number
