import SearchSql.Number.Printing

/-!
# What is printed reads back

Reading is the left inverse of printing, for whole numbers of at most `maxDigits` digits and for
all finite doubles.
-/

namespace SearchSql.Number

/-- The characters of printed numbers. -/
def numeralChars : List Char := "0123456789-+.eE".toList

theorem numeral_char {c : Char} (h : c ∈ numeralChars) :
    (match Text.digitValue? c with
      | some d => d.digitChar
      | none => c) = c ∧ Text.isNumberBlank c = false ∧ c ≠ '_' := by
  have all : numeralChars.all (fun c => decide ((match Text.digitValue? c with
      | some d => d.digitChar
      | none => c) = c ∧ Text.isNumberBlank c = false ∧ c ≠ '_')) = true := by decide
  exact of_decide_eq_true (List.all_eq_true.1 all c h)

theorem mem_numeralChars_of_isDigit {c : Char} (h : c.isDigit = true) : c ∈ numeralChars := by
  have hv : c.toNat < 58 := by
    simp only [Char.isDigit, Bool.and_eq_true, decide_eq_true_eq] at h
    have := h.2
    rw [UInt32.le_iff_toNat_le] at this
    exact Nat.lt_of_le_of_lt this (by decide)
  have all : ∀ n < 58, (Char.ofNat n).isDigit = true → Char.ofNat n ∈ numeralChars := by
    decide
  have := all c.toNat hv
  rw [Char.ofNat_toNat] at this
  exact this h

theorem isDigit_of_mem_natText {n : Nat} {c : Char} (h : c ∈ natText n) : c.isDigit = true :=
  Nat.isDigit_of_mem_toDigits (by decide) (by decide) h

theorem natText_ne_nil (n : Nat) : natText n ≠ [] := Nat.toDigits_ne_nil

theorem natOf?_natText (n : Nat) : natOf? (natText n) = some n := by
  have hall : (natText n).all Char.isDigit = true :=
    List.all_eq_true.2 fun _ h => isDigit_of_mem_natText h
  rw [natOf?, if_pos ⟨natText_ne_nil n, hall⟩]
  exact congrArg some (Nat.ofDigitChars_toDigits (by decide) (by decide))

theorem trimBy_eq_self {p : Char → Bool} {s : List Char} (h : ∀ c ∈ s, p c = false) :
    Text.trimBy p s = s := by
  have keep : ∀ t : List Char, (∀ c ∈ t, p c = false) → t.dropWhile p = t := by
    intro t ht
    cases t with
    | nil => rfl
    | cons c r => simp [ht c (by simp)]
  rw [Text.trimBy, keep s h, keep s.reverse (by simpa using h), List.reverse_reverse]

theorem ungroup_go_eq_self {s : List Char} (h : ∀ c ∈ s, c ≠ '_') (b : Bool) :
    ungroup.go b s = some s := by
  induction s generalizing b with
  | nil => simp [ungroup.go]
  | cons c r ih =>
    have hc : c ≠ '_' := h c (by simp)
    rw [ungroup.go]
    · rw [ih fun d hd => h d (by simp [hd])]; rfl
    · intro d rest hd; exact absurd hd hc
    · intro hd; exact absurd hd hc

/-- A text of plain digits and of characters that are neither blanks nor underscores is tidy
already. -/
theorem tidy_eq_self_of {s : List Char} (h : ∀ c ∈ s, plainDigits [c] = [c] ∧
    Text.isNumberBlank c = false ∧ c ≠ '_') : tidy s = some s := by
  have hblank : ∀ c ∈ s, Text.isNumberBlank c = false := fun c hc => (h c hc).2.1
  have hplain : plainDigits s = s := by
    rw [plainDigits]
    conv => rhs; rw [← List.map_id s]
    exact List.map_congr_left fun c hc => List.head_eq_of_cons_eq (h c hc).1
  rw [tidy, trimBy_eq_self hblank, hplain, ungroup]
  exact ungroup_go_eq_self (fun c hc => (h c hc).2.2) _

/-- A text made of the characters of printed numbers is tidy already. -/
theorem tidy_eq_self {s : List Char} (h : ∀ c ∈ s, c ∈ numeralChars) : tidy s = some s :=
  tidy_eq_self_of fun c hc => ⟨congrArg ([·]) (numeral_char (h c hc)).1, (numeral_char (h c hc)).2⟩

theorem splitSign_of_isDigit {c : Char} {s : List Char} (h : c.isDigit = true) :
    splitSign (c :: s) = (false, c :: s) := by
  have h1 : c ≠ '-' := by rintro rfl; exact absurd h (by decide)
  have h2 : c ≠ '+' := by rintro rfl; exact absurd h (by decide)
  rw [splitSign]
  · rintro r ⟨⟩; exact h1 rfl
  · rintro r ⟨⟩; exact h2 rfl

theorem splitSign_natText (n : Nat) (s : List Char) :
    splitSign (natText n ++ s) = (false, natText n ++ s) := by
  obtain ⟨c, r, hr⟩ := List.exists_cons_of_ne_nil (natText_ne_nil n)
  rw [hr]
  exact splitSign_of_isDigit (isDigit_of_mem_natText (hr ▸ List.mem_cons_self))

theorem readInt?_intText {n : Int} (h : (natText n.natAbs).length ≤ maxDigits) :
    readInt? (intText n) = some n := by
  have hmem : ∀ c ∈ natText n.natAbs, c ∈ numeralChars :=
    fun c hc => mem_numeralChars_of_isDigit (isDigit_of_mem_natText hc)
  have hsplit := splitSign_natText n.natAbs []
  rw [List.append_nil] at hsplit
  by_cases neg : n < 0
  · have worth : -(n.natAbs : Int) = n := by omega
    rw [intText, if_pos neg]
    generalize n.natAbs = k at *
    have htidy : tidy ('-' :: natText k) = some ('-' :: natText k) :=
      tidy_eq_self (by
        intro c hc
        rcases List.mem_cons.1 hc with rfl | hc
        · decide
        · exact hmem c hc)
    simp [readInt?, htidy, splitSign, natOf?_natText, h, worth]
  · have worth : (n.natAbs : Int) = n := by omega
    rw [intText, if_neg neg]
    generalize n.natAbs = k at *
    simp [readInt?, tidy_eq_self hmem, hsplit, natOf?_natText, h, worth]

theorem takeWhile_natText_append {n : Nat} {c : Char} {s : List Char} (h : c.isDigit = false) :
    (natText n ++ c :: s).takeWhile Char.isDigit = natText n ∧
      (natText n ++ c :: s).dropWhile Char.isDigit = c :: s := by
  have hall : ∀ d ∈ natText n, d.isDigit = true := fun d hd => isDigit_of_mem_natText hd
  constructor
  · rw [List.takeWhile_append_of_pos hall]; simp [h]
  · rw [List.dropWhile_append_of_pos hall]; simp [h]

theorem toLower_of_isDigit {c : Char} (h : c.isDigit = true) : c.toLower = c := by
  have all : numeralChars.all (fun c => c.isDigit = true → c.toLower = c) = true := by
    decide
  exact of_decide_eq_true (List.all_eq_true.1 all c (mem_numeralChars_of_isDigit h)) h

/-- What starts with digits is no name. -/
theorem map_toLower_natText_append_ne {n : Nat} {s w : List Char} (hw : w ≠ [])
    (hall : (w.all fun c => !c.isDigit) = true) :
    (natText n ++ s).map Char.toLower ≠ w := by
  intro heq
  obtain ⟨first, more, hfirst⟩ := List.exists_cons_of_ne_nil (natText_ne_nil n)
  have hd : first.isDigit = true := isDigit_of_mem_natText (hfirst ▸ List.mem_cons_self)
  rw [hfirst] at heq
  cases w with
  | nil => exact hw rfl
  | cons c r =>
    simp only [List.cons_append, List.map_cons, List.cons.injEq] at heq
    rw [toLower_of_isDigit hd] at heq
    rw [heq.1] at hd
    simp [hd] at hall

theorem pow_pos_of_pos {b : Nat} (h : 0 < b) (k : Nat) : 0 < Nat.pow b k := Nat.pow_pos h

theorem unitDigits_ne_zero : unitDigits ≠ 0 := by decide +kernel

theorem mul_unitDigits_mul_unitsPerOne (n : Nat) {places : Nat} (h : places = 1074) :
    n * unitDigits * Finite64.unitsPerOne = n * Nat.pow 10 places := by
  subst h
  exact (Nat.mul_assoc ..).trans (congrArg (n * ·) (by decide +kernel))

/-- A numeral with digits after the point that is worth as much as a double reads as it. -/
theorem toBinary64_eq_finite {x : Finite64} {digits places : Nat} (h : digits ≠ 0)
    (worth : digits * Finite64.unitsPerOne = x.units * Nat.pow 10 places)
    (pos : 0 < places) (small : places ≤ 2000) :
    (Decimal.mk x.negative digits (-(places : Int))).toBinary64 = .finite x := by
  have hlarge : ¬ (400 : Int) < -(places : Int) := by omega
  have hleast : ¬ -(places : Int) < -(2000 + digits.log2 : Int) := by
    generalize digits.log2 = l; omega
  have hsign : ¬ (0 : Int) ≤ -(places : Int) := by omega
  have hplaces : (- -(places : Int)).toNat = places := by omega
  rw [Decimal.toBinary64, if_neg h, if_neg hlarge, if_neg hleast, if_neg hsign]
  dsimp only
  rw [worth, hplaces]
  exact Finite64.ofRatio_units x (pow_pos_of_pos (by decide) places)

theorem readBinary64?_exactText (x : Finite64) (h : x.units ≠ 0) :
    readBinary64? (signed x.negative (exactText x.units)) = some (.finite x) := by
  have hdigits : x.units * unitDigits ≠ 0 := Nat.mul_ne_zero h unitDigits_ne_zero
  have hmem : ∀ c ∈ exactText x.units, c ∈ numeralChars := by
    intro c hc
    rcases List.mem_append.1 hc with hc | hc
    · exact mem_numeralChars_of_isDigit (isDigit_of_mem_natText hc)
    · have all : "e-1074".toList.all numeralChars.contains = true := by decide
      exact List.contains_iff_mem.1 (List.all_eq_true.1 all c hc)
  have htidy : tidy (signed x.negative (exactText x.units))
      = some (signed x.negative (exactText x.units)) := by
    apply tidy_eq_self
    intro c hc
    rw [signed] at hc
    split at hc
    · rcases List.mem_cons.1 hc with rfl | hc
      · decide
      · exact hmem c hc
    · exact hmem c hc
  have hsplit : splitSign (signed x.negative (exactText x.units))
      = (x.negative, exactText x.units) := by
    cases hn : x.negative
    · simp only [signed, exactText]; exact splitSign_natText _ _
    · rfl
  have hname : ∀ w : List Char, w ≠ [] → (w.all fun c => !c.isDigit) = true →
      ¬ String.ofList ((exactText x.units).map Char.toLower) = String.ofList w :=
    fun w hw hall heq => by
      unfold exactText at heq
      exact map_toLower_natText_append_ne hw hall (String.ofList_injective heq)
  have hdecimal : decimalOf? x.negative (exactText x.units)
      = some ⟨x.negative, x.units * unitDigits, -1074⟩ := by
    have hcut := takeWhile_natText_append (n := x.units * unitDigits) (s := "-1074".toList)
      (show 'e'.isDigit = false by decide)
    have hmark : "e-1074".toList = 'e' :: "-1074".toList := by decide
    have hparts : splitFraction ('e' :: "-1074".toList) = ([], 'e' :: "-1074".toList) := by decide
    have hexp : exponentOf? ('e' :: "-1074".toList) = some (-1074) := by decide
    rw [exactText, hmark, decimalOf?, hcut.1, hcut.2]
    simp only [hparts, List.append_nil, natOf?_natText, hexp]
    rfl
  have hvalue : (Decimal.mk x.negative (x.units * unitDigits) (-1074)).toBinary64 = .finite x := by
    obtain ⟨places, hplaces⟩ : ∃ k : Nat, k = 1074 := ⟨_, rfl⟩
    rw [show (-1074 : Int) = -(places : Int) by omega]
    exact toBinary64_eq_finite hdigits (mul_unitDigits_mul_unitsPerOne x.units hplaces)
      (by omega) (by omega)
  have h1 := hname "inf".toList (by decide) (by decide)
  have h2 := hname "infinity".toList (by decide) (by decide)
  have h3 := hname "nan".toList (by decide) (by decide)
  rw [String.ofList_toList] at h1 h2 h3
  simp [readBinary64?, htidy, hsplit, h1, h2, h3, hdecimal, hvalue]

/-- The text of a finite double reads back as that double. -/
theorem readBinary64?_finiteText (x : Finite64) :
    readBinary64? (finiteText x) = some (.finite x) := by
  rw [finiteText]
  split
  · next h =>
    have hrank : x.rank = 0 := by
      simp only [Finite64.units, Finite64.unitsOf] at h
      split at h
      · exact h
      · have pos : 0 < Finite64.perBinade + x.rank % Finite64.perBinade := by
          simp only [Finite64.perBinade]; omega
        exact absurd h (Nat.ne_of_gt (Finite64.shiftLeft_pos pos _))
    obtain ⟨negative, rank, hlt⟩ := x
    subst hrank
    have all : ∀ negative, readBinary64? (signed negative "0.0".toList)
        = some (.finite (.zero negative)) := by decide
    exact all negative
  · next h =>
    dsimp only
    split
    · next t ht => simpa using List.find?_some ht
    · exact readBinary64?_exactText x h

end SearchSql.Number
