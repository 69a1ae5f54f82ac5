import SearchSql.Proofs.Schema.Naming
import SearchSql.Proofs.Text.Casing

/-!
# Identifiers

Which names pass the check: the identifiers, and also a word with one line feed behind it, be the
word a keyword or not (`check_eq_ok_iff`). For a relation it may be two of them with a dot in
between (`checkRelation_eq_ok_iff`). Those without a line feed are the names that are meant
(`isRelationName_iff_check`), and with line feeds still nothing but the characters of names and one
dot gets through (`isUnquoted_of_checkRelation`).
-/

namespace SearchSql

namespace Name

/-! ## Names as they are meant -/

/-- The characters of a name: ASCII letters, digits and underscores. -/
def IsNameChar (c : Char) : Prop :=
  ('a' ≤ c ∧ c ≤ 'z') ∨ ('A' ≤ c ∧ c ≤ 'Z') ∨ ('0' ≤ c ∧ c ≤ '9') ∨ c = '_'

instance : DecidablePred IsNameChar := fun _ => inferInstanceAs (Decidable (_ ∨ _ ∨ _ ∨ _))

/-- A text of such characters that does not begin with a digit. -/
structure IsWord (s : List Char) : Prop where
  nonempty : s ≠ []
  chars : ∀ c ∈ s, IsNameChar c
  start : ∀ c ∈ s.head?, ¬ ('0' ≤ c ∧ c ≤ '9')

/-- A keyword, any letters of which may be capitals. -/
def IsReserved (s : List Char) : Prop :=
  ∃ keyword ∈ keywords, List.Forall₂ (fun c d => c = d ∨ c = d.toUpper) s keyword.toList

structure IsIdentifier (name : String) : Prop where
  word : IsWord name.toList
  length : name.length ≤ 63
  unreserved : ¬ IsReserved name.toList

/-- An identifier, or two of them joined by a dot. -/
def IsRelationName (name : String) : Prop :=
  IsIdentifier name ∨ ∃ schema relation, name = schema ++ "." ++ relation ∧
    IsIdentifier schema ∧ IsIdentifier relation

/-- A word with a line feed behind it. -/
def IsFedWord (name : String) : Prop :=
  ∃ word, name = word ++ "\n" ∧ IsWord word.toList ∧ word.length < 63

/-- A name of which nothing but a line feed can break out of its place in a text. -/
structure IsUnquoted (name : String) : Prop where
  chars : ∀ c ∈ name.toList, IsNameChar c ∨ c = '.' ∨ c = '\n'
  dots : name.toList.count '.' ≤ 1
  feeds : ∀ part ∈ parts name.toList, '\n' ∉ part.dropLast

/-! ## Words -/

theorem isDigit_iff {c : Char} : c.isDigit = true ↔ '0' ≤ c ∧ c ≤ '9' := by
  simp [Char.isDigit, Char.le_def]

theorem isPart_iff {c : Char} : isPart c = true ↔ IsNameChar c := by
  simp only [isPart, IsNameChar, Char.isAlphanum, Bool.or_eq_true, decide_eq_true_eq,
    Text.isAlpha_iff, Text.isUpper_iff_le, Text.isLower_iff_le, isDigit_iff]
  tauto

theorem isStart_iff {c : Char} : isStart c = true ↔ IsNameChar c ∧ ¬ ('0' ≤ c ∧ c ≤ '9') := by
  have apart : isStart c = true → ¬ ('0' ≤ c ∧ c ≤ '9') := by
    simp only [isStart, Bool.or_eq_true, decide_eq_true_eq, Text.isAlpha_iff, Text.isUpper_iff,
      Text.isLower_iff]
    rintro (letter | rfl)
    · rintro ⟨-, digit⟩
      have last : c.toNat ≤ 57 := digit
      omega
    · decide
  have either : isPart c = true ↔ isStart c = true ∨ ('0' ≤ c ∧ c ≤ '9') := by
    simp only [isPart, isStart, Char.isAlphanum, Bool.or_eq_true, isDigit_iff]
    tauto
  rw [← isPart_iff, either]
  tauto

theorem isWord_cons {c : Char} {rest : List Char} :
    IsWord (c :: rest) ↔ isStart c = true ∧ rest.all isPart = true := by
  rw [isStart_iff, List.all_eq_true]
  constructor
  · intro h
    obtain ⟨first, others⟩ := List.forall_mem_cons.mp h.chars
    exact ⟨⟨first, h.start c rfl⟩, fun d hd => isPart_iff.mpr (others d hd)⟩
  · rintro ⟨⟨first, start⟩, others⟩
    refine ⟨List.cons_ne_nil _ _, List.forall_mem_cons.mpr ⟨first, ?_⟩, ?_⟩
    · exact fun d hd => isPart_iff.mp (others d hd)
    · rintro d ⟨⟩
      exact start

theorem IsWord.not_mem {s : List Char} (h : IsWord s) {c : Char} (foreign : isPart c = false) :
    c ∉ s := by
  intro hc
  rw [isPart_iff.mpr (h.chars c hc)] at foreign
  cases foreign

/-- What the pattern of a name matches. -/
theorem isIdentifier_iff {s : List Char} :
    isIdentifier s = true ↔ IsWord s ∨ ∃ word, s = word ++ ['\n'] ∧ IsWord word := by
  cases s with
  | nil =>
    have empty : ¬ IsWord [] := fun h => h.nonempty rfl
    simp [isIdentifier, empty]
  | cons c rest =>
    rw [isIdentifier, Bool.and_eq_true, dropFinalLineFeed]
    by_cases feed : rest.getLast? = some '\n'
    · rw [if_pos feed, ← isWord_cons]
      obtain ⟨init, rfl⟩ := List.getLast?_eq_some_iff.mp feed
      rw [List.dropLast_concat, ← List.cons_append]
      have unfed : ¬ IsWord (c :: init ++ ['\n']) := fun h =>
        h.not_mem (by decide) (List.mem_append_right _ List.mem_cons_self)
      rw [or_iff_right unfed]
      constructor
      · intro word
        exact ⟨_, rfl, word⟩
      · rintro ⟨word, same, h⟩
        rw [List.append_cancel_right same]
        exact h
    · rw [if_neg feed, ← isWord_cons, or_iff_left]
      rintro ⟨word, same, h⟩
      cases word with
      | nil => exact h.nonempty rfl
      | cons d init =>
        cases same
        exact feed List.getLast?_concat

/-! ## Keywords -/

/-- Keywords are made of small letters and underscores. -/
theorem small_of_mem_keywords {keyword : String} (known : keyword ∈ keywords) {d : Char}
    (hd : d ∈ keyword.toList) : d.isUpper = false ∧ d ≠ '\n' := by
  have all : keywords.all (fun k => k.toList.all fun d => ! d.isUpper && d != '\n') = true := by
    decide +kernel
  have small := List.all_eq_true.mp (List.all_eq_true.mp all keyword known) d hd
  simpa using small

theorem isReserved_iff {s : List Char} :
    IsReserved s ↔ String.ofList (s.map Char.toLower) ∈ keywords := by
  constructor
  · rintro ⟨keyword, known, same⟩
    have small := fun d hd => (@small_of_mem_keywords keyword known d hd).1
    rw [(Text.map_toLower_eq_iff small).mpr same, String.ofList_toList]
    exact known
  · intro known
    refine ⟨_, known, (Text.map_toLower_eq_iff fun d hd => (small_of_mem_keywords known hd).1).mp ?_⟩
    rw [String.toList_ofList]

theorem isKeyword_iff {name : String} : isKeyword name = true ↔ IsReserved name.toList := by
  rw [isKeyword, List.contains_iff_mem, isReserved_iff]

/-- With a line feed behind it, no word is reserved. -/
theorem not_isReserved_of_feed (s : List Char) : ¬ IsReserved (s ++ ['\n']) := by
  intro reserved
  refine (small_of_mem_keywords (isReserved_iff.mp reserved) ?_).2 rfl
  rw [String.toList_ofList, List.map_append]
  exact List.mem_append_right _ List.mem_cons_self

theorem toList_qualified (schema relation : String) :
    (schema ++ "." ++ relation).toList = schema.toList ++ '.' :: relation.toList := by
  rw [String.toList_append, String.toList_append, List.append_assoc]
  rfl

/-- A name as it is meant to be has no other character than those of its words and the dot. -/
theorem IsRelationName.chars {name : String} (h : IsRelationName name) :
    ∀ c ∈ name.toList, IsNameChar c ∨ c = '.' := by
  rcases h with identifier | ⟨schema, relation, rfl, hschema, hrelation⟩
  · exact fun c hc => Or.inl (identifier.word.chars c hc)
  · intro c hc
    rw [toList_qualified] at hc
    rcases List.mem_append.mp hc with hc | hc
    · exact Or.inl (hschema.word.chars c hc)
    rcases List.mem_cons.mp hc with dot | hc
    · exact Or.inr dot
    · exact Or.inl (hrelation.word.chars c hc)

/-! ## The checks -/

theorem check_eq_ok_iff {name : String} :
    check name = .ok () ↔ IsIdentifier name ∨ IsFedWord name := by
  have steps : check name = .ok () ↔
      name.length ≤ 63 ∧ isIdentifier name.toList = true ∧ ¬ IsReserved name.toList := by
    have filled : isIdentifier name.toList = true → ¬ name.isEmpty = true := by
      intro identifier empty
      rw [String.isEmpty_iff.mp empty] at identifier
      cases identifier
    rw [← isKeyword_iff, check, Except.ite_error_eq_ok, Except.ite_error_eq_ok,
      Except.ite_error_eq_ok, Except.ite_error_eq_ok, Nat.not_lt, maxLength]
    constructor
    · rintro ⟨-, short, identifier, unreserved, -⟩
      exact ⟨short, by simpa using identifier, unreserved⟩
    · rintro ⟨short, identifier, unreserved⟩
      exact ⟨filled identifier, short, by simpa using identifier, unreserved, rfl⟩
  rw [steps, isIdentifier_iff]
  constructor
  · rintro ⟨short, word | ⟨word, same, hword⟩, unreserved⟩
    · exact Or.inl ⟨word, short, unreserved⟩
    · rw [← String.length_toList, same, List.length_append] at short
      refine Or.inr ⟨String.ofList word, String.toList_inj.mp ?_, ?_, ?_⟩
      · rw [same, String.toList_append, String.toList_ofList]
        rfl
      · rwa [String.toList_ofList]
      · rw [String.length_ofList]
        exact short
  · rintro (⟨word, short, unreserved⟩ | ⟨word, rfl, hword, short⟩)
    · exact ⟨short, Or.inl word, unreserved⟩
    · rw [String.length_append, String.toList_append]
      exact ⟨short, Or.inr ⟨_, rfl, hword⟩, not_isReserved_of_feed _⟩

theorem isWord_of_check {name : String} (h : check name = .ok ()) :
    IsWord name.toList ∨ ∃ word, name.toList = word ++ ['\n'] ∧ IsWord word := by
  rcases check_eq_ok_iff.mp h with identifier | ⟨word, rfl, hword, -⟩
  · exact Or.inl identifier.word
  · exact Or.inr ⟨_, String.toList_append, hword⟩

theorem not_mem_of_check {name : String} (h : check name = .ok ()) : '.' ∉ name.toList := by
  rcases isWord_of_check h with word | ⟨word, same, hword⟩
  · exact word.not_mem (by decide)
  · rw [same]
    exact List.not_mem_append (hword.not_mem (by decide)) (by decide)

theorem parts_of_not_mem {s : List Char} (h : '.' ∉ s) : parts s = [s] := by
  induction s with
  | nil => rfl
  | cons c s ih =>
    obtain ⟨first, others⟩ := not_or.mp (mt List.mem_cons.mpr h)
    rw [parts, if_neg (Ne.symm first), ih others]

theorem parts_append {s : List Char} (h : '.' ∉ s) (rest : List Char) :
    parts (s ++ '.' :: rest) = s :: parts rest := by
  induction s with
  | nil => rw [List.nil_append, parts, if_pos rfl]
  | cons c s ih =>
    obtain ⟨first, others⟩ := not_or.mp (mt List.mem_cons.mpr h)
    rw [List.cons_append, parts, if_neg (Ne.symm first), ih others]

theorem length_parts (s : List Char) : (parts s).length = s.count '.' + 1 := by
  induction s with
  | nil => rfl
  | cons c s ih =>
    rw [parts, List.count_cons]
    by_cases dot : c = '.'
    · rw [if_pos dot, List.length_cons, ih]
      simp [dot]
    · rw [if_neg dot]
      rw [if_neg (by simpa using dot), Nat.add_zero, ← ih]
      cases hparts : parts s with
      | nil =>
        rw [hparts] at ih
        cases ih
      | cons p ps => rfl

theorem checkRelation_eq_ok {name : String} :
    checkRelation name = .ok () ↔ (parts name.toList).length ≤ 2 ∧
      ∀ part ∈ parts name.toList, check (String.ofList part) = .ok () := by
  simp only [checkRelation]
  rw [Except.ite_error_eq_ok, Nat.not_lt, Except.forM_eq_ok]

theorem checkRelation_eq_ok_iff {name : String} :
    checkRelation name = .ok () ↔ check name = .ok () ∨
      ∃ schema relation, name = schema ++ "." ++ relation ∧
        check schema = .ok () ∧ check relation = .ok () := by
  rw [checkRelation_eq_ok]
  constructor
  · rintro ⟨short, checked⟩
    by_cases dot : '.' ∈ name.toList
    · obtain ⟨schema, relation, split, undotted⟩ := List.eq_append_cons_of_mem dot
      rw [split, parts_append undotted] at short checked
      have undotted' : '.' ∉ relation := by
        intro another
        rw [List.length_cons, length_parts] at short
        have := List.one_le_count_iff.mpr another
        omega
      rw [parts_of_not_mem undotted'] at checked
      refine Or.inr ⟨String.ofList schema, String.ofList relation, String.toList_inj.mp ?_, ?_, ?_⟩
      · rw [toList_qualified, String.toList_ofList, String.toList_ofList, split]
      · exact checked _ List.mem_cons_self
      · exact checked _ (List.mem_cons_of_mem _ List.mem_cons_self)
    · rw [parts_of_not_mem dot, List.forall_mem_singleton, String.ofList_toList] at checked
      exact Or.inl checked
  · rintro (checked | ⟨schema, relation, rfl, hschema, hrelation⟩)
    · rw [parts_of_not_mem (not_mem_of_check checked), List.forall_mem_singleton,
        String.ofList_toList]
      exact ⟨Nat.le_succ 1, checked⟩
    · rw [toList_qualified, parts_append (not_mem_of_check hschema),
        parts_of_not_mem (not_mem_of_check hrelation)]
      simp [hschema, hrelation]

theorem isUnquoted_of_checkRelation {name : String} (h : checkRelation name = .ok ()) :
    IsUnquoted name := by
  obtain ⟨short, checked⟩ := checkRelation_eq_ok.mp h
  have words : ∀ s ∈ parts name.toList, IsWord s ∨ ∃ word, s = word ++ ['\n'] ∧ IsWord word := by
    intro s hs
    have word := isWord_of_check (checked s hs)
    rwa [String.toList_ofList] at word
  refine ⟨?_, ?_, ?_⟩
  · intro c hc
    rcases mem_parts hc with dot | ⟨s, hs, hc⟩
    · exact Or.inr (Or.inl dot)
    rcases words s hs with word | ⟨word, rfl, hword⟩
    · exact Or.inl (word.chars c hc)
    · rcases List.mem_append.mp hc with hc | hc
      · exact Or.inl (hword.chars c hc)
      · exact Or.inr (Or.inr (List.mem_singleton.mp hc))
  · rw [length_parts] at short
    exact Nat.le_of_succ_le_succ short
  · intro s hs
    rcases words s hs with word | ⟨word, rfl, hword⟩
    · exact fun feed => word.not_mem (by decide) (List.dropLast_subset s feed)
    · rw [List.dropLast_concat]
      exact hword.not_mem (by decide)

theorem not_mem_of_isRelationName {name : String} (h : IsRelationName name) :
    '\n' ∉ name.toList := by
  intro feed
  rcases h.chars _ feed with part | dot
  · exact absurd (isPart_iff.mpr part) (by decide)
  · exact absurd dot (by decide)

/-- Of the names that pass the check, those without a line feed are meant. -/
theorem isIdentifier_iff_check {name : String} :
    IsIdentifier name ↔ check name = .ok () ∧ '\n' ∉ name.toList := by
  rw [check_eq_ok_iff]
  constructor
  · exact fun h => ⟨Or.inl h, not_mem_of_isRelationName (Or.inl h)⟩
  · rintro ⟨identifier | ⟨word, rfl, -⟩, unfed⟩
    · exact identifier
    · rw [String.toList_append] at unfed
      exact absurd (List.mem_append_right _ List.mem_cons_self) unfed

theorem isRelationName_iff_check {name : String} :
    IsRelationName name ↔ checkRelation name = .ok () ∧ '\n' ∉ name.toList := by
  rw [checkRelation_eq_ok_iff]
  constructor
  · intro h
    refine ⟨?_, not_mem_of_isRelationName h⟩
    rcases h with identifier | ⟨schema, relation, rfl, hschema, hrelation⟩
    · exact Or.inl (isIdentifier_iff_check.mp identifier).1
    · exact Or.inr ⟨schema, relation, rfl, (isIdentifier_iff_check.mp hschema).1,
        (isIdentifier_iff_check.mp hrelation).1⟩
  · rintro ⟨checked | ⟨schema, relation, rfl, hschema, hrelation⟩, unfed⟩
    · exact Or.inl (isIdentifier_iff_check.mpr ⟨checked, unfed⟩)
    · rw [toList_qualified] at unfed
      obtain ⟨unfedSchema, unfedRest⟩ := not_or.mp (mt List.mem_append.mpr unfed)
      obtain ⟨-, unfedRelation⟩ := not_or.mp (mt List.mem_cons.mpr unfedRest)
      exact Or.inr ⟨schema, relation, rfl, isIdentifier_iff_check.mpr ⟨hschema, unfedSchema⟩,
        isIdentifier_iff_check.mpr ⟨hrelation, unfedRelation⟩⟩

end Name

end SearchSql
