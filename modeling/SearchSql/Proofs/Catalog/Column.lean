import Mathlib.Data.List.DropRight
import SearchSql.Proofs.Catalog.Definition

/-!
# Columns

A column is read as the first word in it, behind parentheses and one quotation mark. Whatever stands
behind that word is not looked at, so a column in quotation marks is read as the first word between
them (`leadingName?_quoted`). A column that is an identifier, plain or in quotation marks, or an
expression in parentheses that begins with one is read as this identifier
(`IsColumn.leadingName?_trim`).
-/

namespace SearchSql

namespace Text

/-- Trimming leaves a text that has no blanks at its ends, whatever stands behind it. -/
theorem trim_append {s : List Char} (first : ∃ c ∈ s.head?, isBlank c = false)
    (last : ∃ c ∈ s.getLast?, isBlank c = false) (rest : List Char) :
    ∃ kept, kept <+: rest ∧ trim (s ++ rest) = s ++ kept := by
  obtain ⟨c, hc, solid⟩ := first
  obtain ⟨d, hd, solid'⟩ := last
  obtain ⟨tail, htail⟩ := List.head?_eq_some_iff.mp hc
  obtain ⟨init, hinit⟩ := List.getLast?_eq_some_iff.mp hd
  have front : (s ++ rest).dropWhile isBlank = s ++ rest := by
    rw [htail, List.cons_append, List.dropWhile_cons_of_neg (by simp [solid])]
  have back : s.reverse.dropWhile isBlank = s.reverse := by
    rw [hinit, List.reverse_append, List.reverse_singleton, List.singleton_append,
      List.dropWhile_cons_of_neg (by simp [solid'])]
  refine ⟨rest.rdropWhile isBlank, List.rdropWhile_prefix _ _, ?_⟩
  rw [trim, trimBy, front, List.reverse_append, List.dropWhile_append, back, List.rdropWhile]
  by_cases all : (rest.reverse.dropWhile isBlank).isEmpty = true
  · rw [if_pos all, List.isEmpty_iff.mp all]
    simp
  · rw [if_neg all]
    simp

theorem trim_eq_self {s : List Char} (first : ∃ c ∈ s.head?, isBlank c = false)
    (last : ∃ c ∈ s.getLast?, isBlank c = false) : trim s = s := by
  obtain ⟨kept, hkept, same⟩ := trim_append first last []
  rwa [List.prefix_nil.mp hkept, List.append_nil] at same

end Text

namespace Catalog

open Name (IsWord IsNameChar)

/-- The longest word in front of a text. -/
structure IsFirstWord (word s : List Char) : Prop where
  isWord : IsWord word
  ends : ∃ rest, s = word ++ rest ∧ ∀ c ∈ rest.head?, ¬ IsNameChar c

/-! ## Words in front -/

theorem not_isBlank_of_isNameChar {c : Char} (h : IsNameChar c) : Text.isBlank c = false := by
  rw [Bool.eq_false_iff]
  intro blank
  simp only [Text.isBlank, Text.inSpans_eq_true, Text.blankSpans, List.mem_cons, List.not_mem_nil,
    or_false, exists_eq_or_imp, exists_eq_left] at blank
  simp only [IsNameChar, Char.le_def, UInt32.le_iff_toNat_le] at h
  have code : c.val.toNat = c.toNat := rfl
  rcases h with ⟨low, high⟩ | ⟨low, high⟩ | ⟨low, high⟩ | rfl
  · have low : 97 ≤ c.toNat := low
    have high : c.toNat ≤ 122 := high
    omega
  · have low : 65 ≤ c.toNat := low
    have high : c.toNat ≤ 90 := high
    omega
  · have low : 48 ≤ c.toNat := low
    have high : c.toNat ≤ 57 := high
    omega
  · revert blank
    decide

theorem ne_of_isNameChar {c mark : Char} (h : IsNameChar c) (foreign : isNamePart mark = false) :
    c ≠ mark := by
  rintro rfl
  exact Bool.false_ne_true (foreign.symm.trans (Name.isPart_iff.mpr h))

theorem exists_head_of_isWord {word : List Char} (h : IsWord word) :
    ∃ c ∈ word.head?, Text.isBlank c = false :=
  ⟨_, List.head?_eq_some_head h.nonempty,
    not_isBlank_of_isNameChar (h.chars _ (List.head_mem h.nonempty))⟩

theorem exists_last_of_isWord {word : List Char} (h : IsWord word) :
    ∃ c ∈ word.getLast?, Text.isBlank c = false :=
  ⟨_, List.getLast?_eq_some_getLast h.nonempty,
    not_isBlank_of_isNameChar (h.chars _ (List.getLast_mem h.nonempty))⟩

/-- A text without the mark that it may begin with. -/
def skipChar (mark : Char) (s : List Char) : List Char := (afterChar? mark s).getD s

theorem skipChar_self (mark : Char) (s : List Char) : skipChar mark (mark :: s) = s := by
  rw [skipChar, afterChar?, if_pos rfl, Option.getD_some]

theorem skipChar_of_ne {mark c : Char} (h : c ≠ mark) (s : List Char) :
    skipChar mark (c :: s) = c :: s := by
  rw [skipChar, afterChar?, if_neg h, Option.getD_none]

theorem skipChar_word {mark : Char} {word : List Char} (isWord : IsWord word)
    (foreign : isNamePart mark = false) (rest : List Char) :
    skipChar mark (word ++ rest) = word ++ rest := by
  cases word with
  | nil => exact absurd rfl isWord.nonempty
  | cons c word =>
    exact skipChar_of_ne (ne_of_isNameChar (isWord.chars c List.mem_cons_self) foreign) _

theorem stopsAt_word {p : Char → Bool} {word : List Char} (isWord : IsWord word)
    (other : ∀ c, IsNameChar c → p c = false) (rest : List Char) : StopsAt p (word ++ rest) := by
  cases word with
  | nil => exact absurd rfl isWord.nonempty
  | cons c word => exact stopsAt_cons (other c (isWord.chars c List.mem_cons_self))

theorem skipBlanks_word {word : List Char} (isWord : IsWord word) (rest : List Char) :
    skipBlanks (word ++ rest) = word ++ rest :=
  skipBlanks_append (List.forall_mem_nil _)
    (stopsAt_word isWord (fun _ => not_isBlank_of_isNameChar) rest)

theorem stopsAt_isNamePart_iff {s : List Char} :
    StopsAt isNamePart s ↔ ∀ c ∈ s.head?, ¬ IsNameChar c := by
  refine forall₂_congr fun c _ => ?_
  rw [← Name.isPart_iff, Bool.not_eq_true]
  exact Iff.rfl

/-- The first word of a text, which must begin with a letter or an underscore. -/
def firstWord? : List Char → Option (List Char)
  | [] => none
  | c :: s => if isNameStart c then some (c :: s.takeWhile isNamePart) else none

theorem firstWord?_eq_some_iff {s word : List Char} :
    firstWord? s = some word ↔ IsFirstWord word s := by
  cases s with
  | nil =>
    refine iff_of_false (Option.some_ne_none word).symm ?_
    rintro ⟨isWord, rest, split, -⟩
    exact isWord.nonempty (List.append_eq_nil_iff.mp split.symm).1
  | cons c s =>
    rw [firstWord?]
    by_cases start : isNameStart c = true
    · rw [if_pos start, Option.some.injEq]
      constructor
      · rintro rfl
        refine ⟨Name.isWord_cons.mpr ⟨start, List.all_takeWhile⟩, s.dropWhile isNamePart, ?_, ?_⟩
        · rw [List.cons_append, List.takeWhile_append_dropWhile]
        · exact stopsAt_isNamePart_iff.mp (stopsAt_dropWhile _ _)
      · rintro ⟨isWord, rest, split, stops⟩
        cases word with
        | nil => exact absurd rfl isWord.nonempty
        | cons d word =>
          cases split
          have parts := List.all_eq_true.mp (Name.isWord_cons.mp isWord).2
          exact congrArg (c :: ·) (takeWhile_part parts (stopsAt_isNamePart_iff.mpr stops))
    · rw [if_neg start]
      refine iff_of_false (Option.some_ne_none word).symm ?_
      rintro ⟨isWord, rest, split, -⟩
      cases word with
      | nil => exact absurd rfl isWord.nonempty
      | cons d word =>
        cases split
        exact start (Name.isWord_cons.mp isWord).1

/-- A word in front is the longest one if something stands behind it that belongs to no word. -/
theorem IsFirstWord.intro {word rest : List Char} (isWord : IsWord word)
    (ends : ∀ c ∈ rest.head?, ¬ IsNameChar c) : IsFirstWord word (word ++ rest) :=
  ⟨isWord, rest, rfl, ends⟩

theorem isFirstWord_self {word : List Char} (isWord : IsWord word) : IsFirstWord word word :=
  ⟨isWord, [], (List.append_nil word).symm, nofun⟩

theorem IsFirstWord.unique {word word' s : List Char} (h : IsFirstWord word s)
    (h' : IsFirstWord word' s) : word = word' :=
  Option.some.inj ((firstWord?_eq_some_iff.mpr h).symm.trans (firstWord?_eq_some_iff.mpr h'))

/-- A mark at the end of a text does not change its first word. -/
theorem isFirstWord_concat_iff {word s : List Char} {mark : Char} (h : ¬ IsNameChar mark) :
    IsFirstWord word (s ++ [mark]) ↔ IsFirstWord word s := by
  constructor
  · rintro ⟨isWord, rest, split, ends⟩
    rcases List.eq_nil_or_concat rest with rfl | ⟨rest, c, rfl⟩
    · rw [List.append_nil] at split
      subst split
      exact absurd (isWord.chars mark (List.mem_append_right _ List.mem_cons_self)) h
    · rw [List.concat_eq_append, ← List.append_assoc] at split
      obtain ⟨rfl, -⟩ := List.append_inj' split rfl
      refine .intro isWord ?_
      intro d hd
      refine ends d ?_
      obtain ⟨rest, rfl⟩ := List.head?_eq_some_iff.mp hd
      rfl
  · rintro ⟨isWord, rest, rfl, ends⟩
    refine ⟨isWord, rest ++ [mark], List.append_assoc _ _ _, ?_⟩
    cases rest with
    | nil =>
      rintro d ⟨⟩
      exact h
    | cons c rest => exact ends

/-! ## The names of columns -/

/-- A text between quotation marks. -/
def quoted (s : List Char) : List Char := Text.quotationMark :: (s ++ [Text.quotationMark])

theorem leadingName?_eq (column : List Char) :
    leadingName? column =
      firstWord? (skipChar Text.quotationMark (skipBlanks (column.dropWhile (· = '(')))) := rfl

/-- A column in quotation marks is read as the first word between them. -/
theorem leadingName?_quoted {s word : List Char} :
    leadingName? (quoted s) = some word ↔ IsFirstWord word s := by
  have mark : ¬ IsNameChar Text.quotationMark := by
    rw [← Name.isPart_iff]
    decide
  have inside : leadingName? (quoted s) = firstWord? (s ++ [Text.quotationMark]) := rfl
  rw [inside, firstWord?_eq_some_iff, isFirstWord_concat_iff mark]

/-- A column without a quotation mark is read as the first word behind its parentheses. -/
theorem leadingName?_append {opened s word : List Char} (h : ∀ c ∈ opened, c = '(')
    (hword : IsFirstWord word s) : leadingName? (opened ++ s) = some word := by
  obtain ⟨isWord, rest, rfl, -⟩ := id hword
  have stops : StopsAt (· = '(') (word ++ rest) :=
    stopsAt_word isWord (fun c hc => decide_eq_false (ne_of_isNameChar hc (by decide))) rest
  rw [leadingName?_eq, dropWhile_part (fun c hc => decide_eq_true (h c hc)) stops,
    skipBlanks_word isWord, skipChar_word isWord (by decide)]
  exact firstWord?_eq_some_iff.mpr hword

/-- A column and the identifier in it: alone, in quotation marks, or at the beginning of an
expression in parentheses. -/
inductive IsColumn : List Char → List Char → Prop where
  | plain {name : List Char} (isWord : IsWord name) : IsColumn name name
  | inQuotes {name : List Char} (isWord : IsWord name) : IsColumn (quoted name) name
  | inParentheses {opened name rest : List Char} (parentheses : ∀ c ∈ opened, c = '(')
    (filled : opened ≠ []) (isWord : IsWord name) (ends : ∀ c ∈ rest.head?, ¬ IsNameChar c)
    (closes : Closes (opened ++ (name ++ rest))) : IsColumn (opened ++ (name ++ rest)) name

theorem closes_of_isWord {word : List Char} (h : IsWord word) : Closes word := by
  have other {mark : Char} (foreign : isNamePart mark = false) : mark ∉ word :=
    fun hm => ne_of_isNameChar (h.chars mark hm) foreign rfl
  have unquoted : ∀ c ∈ word, isQuote c = false := by
    intro c hc
    simp only [isQuote, Bool.or_eq_false_iff, decide_eq_false_iff_not]
    exact ⟨ne_of_isNameChar (h.chars c hc) (by decide), ne_of_isNameChar (h.chars c hc) (by decide)⟩
  exact ⟨word, outside?_eq_self unquoted,
    isBalanced_of_notMem (other (by decide)) (other (by decide)) (other (by decide))⟩

theorem closes_quoted {s : List Char} (h : Text.quotationMark ∉ s) : Closes (quoted s) := by
  refine ⟨[], ?_, isBalanced_of_notMem List.not_mem_nil List.not_mem_nil List.not_mem_nil⟩
  exact outside?_concat h

theorem IsColumn.closes {item name : List Char} (h : IsColumn item name) : Closes item := by
  cases h with
  | plain isWord => exact closes_of_isWord isWord
  | inQuotes isWord =>
    exact closes_quoted fun hm => ne_of_isNameChar (isWord.chars _ hm) (by decide) rfl
  | inParentheses _ _ _ _ closes => exact closes

/-- The identifier in a column is found, also if there are blanks behind the column. -/
theorem IsColumn.leadingName?_trim {item name : List Char} (h : IsColumn item name) :
    leadingName? (Text.trim item) = some name := by
  cases h with
  | plain isWord =>
    rw [Text.trim_eq_self (exists_head_of_isWord isWord) (exists_last_of_isWord isWord)]
    exact @leadingName?_append [] _ _ (List.forall_mem_nil _) (isFirstWord_self isWord)
  | inQuotes isWord =>
    have solid : Text.isBlank Text.quotationMark = false := by decide
    have last : Text.quotationMark ∈ (quoted name).getLast? :=
      List.getLast?_concat (l := Text.quotationMark :: name)
    rw [Text.trim_eq_self ⟨_, rfl, solid⟩ ⟨_, last, solid⟩]
    exact leadingName?_quoted.mpr (isFirstWord_self isWord)
  | @inParentheses opened name rest parentheses filled isWord ends closes =>
    have first : ∃ c ∈ (opened ++ name).head?, Text.isBlank c = false := by
      obtain ⟨c, opened, rfl⟩ := List.exists_cons_of_ne_nil filled
      refine ⟨c, rfl, ?_⟩
      rw [parentheses c List.mem_cons_self]
      decide
    have last : ∃ c ∈ (opened ++ name).getLast?, Text.isBlank c = false := by
      rw [List.getLast?_append_of_ne_nil _ isWord.nonempty]
      exact exists_last_of_isWord isWord
    obtain ⟨kept, hkept, trimmed⟩ := Text.trim_append first last rest
    rw [← List.append_assoc, trimmed, List.append_assoc]
    refine leadingName?_append parentheses (.intro isWord ?_)
    intro c hc
    refine ends c ?_
    obtain ⟨kept, rfl⟩ := List.head?_eq_some_iff.mp hc
    obtain ⟨more, rfl⟩ := hkept
    rfl

theorem removeAll_concat (names seen : List String) (name : String) :
    names.removeAll (seen ++ [name]) = (names.removeAll seen).filter fun n => ! n == name := by
  rw [List.removeAll, List.removeAll, List.filter_filter]
  refine List.filter_congr fun n _ => ?_
  by_cases same : n = name
  · simp [same]
  · simp [same]

/-- A name counts where it stands first. -/
theorem append_eraseDups_cons (seen names : List String) (name : String) :
    seen ++ ((name :: names).removeAll seen).eraseDups =
      (if seen.contains name then seen else seen ++ [name]) ++
        (names.removeAll (if seen.contains name then seen else seen ++ [name])).eraseDups := by
  by_cases known : seen.contains name = true
  · rw [if_pos known, List.removeAll, List.filter_cons_of_neg (by simpa using known)]
    rfl
  · rw [if_neg known, removeAll_concat, List.removeAll,
      List.filter_cons_of_pos (by simpa using known), List.eraseDups_cons, List.append_assoc]
    rfl

/-- The names are those of the columns in order, without repeats and without those seen before. -/
theorem columnNames_eq_ok_iff {seen found : List String} {columns : List (List Char)} :
    columnNames seen columns = .ok found ↔
      ∃ names : List String,
        List.Forall₂ (fun column name => leadingName? column = some name.toList) columns names ∧
        found = seen ++ (names.removeAll seen).eraseDups := by
  induction columns generalizing seen with
  | nil =>
    simp only [columnNames, Except.ok.injEq, List.forall₂_nil_left_iff, exists_eq_left]
    simp [List.removeAll, eq_comm]
  | cons column columns ih =>
    rw [columnNames]
    cases hname : leadingName? column with
    | none =>
      refine iff_of_false nofun ?_
      rintro ⟨names, h, -⟩
      cases h with
      | cons first _ => cases hname.symm.trans first
    | some name =>
      simp only [ih]
      constructor
      · rintro ⟨names, h, rfl⟩
        refine ⟨String.ofList name :: names, h.cons ?_, (append_eraseDups_cons ..).symm⟩
        rw [hname, String.toList_ofList]
      · rintro ⟨_, h, rfl⟩
        cases h with
        | @cons _ first _ names same h =>
          obtain rfl : String.ofList name = first := by
            rw [hname, Option.some.injEq] at same
            rw [same, String.ofList_toList]
          exact ⟨names, h, append_eraseDups_cons ..⟩

theorem nodup_eraseDups (names : List String) : names.eraseDups.Nodup := by
  cases names with
  | nil => exact List.nodup_nil
  | cons name names =>
    rw [List.eraseDups_cons, List.nodup_cons]
    exact ⟨by simp, nodup_eraseDups (names.filter fun n => ! n == name)⟩
termination_by names.length
decreasing_by exact Nat.lt_succ_of_le (List.length_filter_le _ _)

theorem exists_of_forall₂ {α β : Type} {R : α → β → Prop} {as : List α} {bs : List β}
    (h : List.Forall₂ R as bs) {a : α} (ha : a ∈ as) : ∃ b ∈ bs, R a b := by
  induction h with
  | nil => cases ha
  | cons first _ ih =>
    rcases List.mem_cons.mp ha with rfl | ha
    · exact ⟨_, List.mem_cons_self, first⟩
    · obtain ⟨b, hb, related⟩ := ih ha
      exact ⟨b, List.mem_cons_of_mem _ hb, related⟩

/-- The columns of a list are found whole. -/
theorem columnNames_eq_eraseDups {items : List (List Char)} {names : List String}
    (h : List.Forall₂ (fun item name => IsColumn item name.toList) items names) :
    columnNames [] (tidyItems items) = .ok names.eraseDups := by
  have found : List.Forall₂ (fun column name => leadingName? column = some name.toList)
      (items.map Text.trim) names := by
    rw [List.forall₂_map_left_iff]
    exact h.imp fun _ _ => IsColumn.leadingName?_trim
  have solid : ∀ column ∈ items.map Text.trim, (! column.isEmpty) = true := by
    rintro (_ | ⟨c, column⟩) hcolumn
    · obtain ⟨name, -, hname⟩ := exists_of_forall₂ found hcolumn
      cases hname
    · rfl
  rw [tidyItems, List.filter_eq_self.mpr solid, columnNames_eq_ok_iff]
  exact ⟨names, found, by simp [List.removeAll]⟩

end Catalog

end SearchSql
