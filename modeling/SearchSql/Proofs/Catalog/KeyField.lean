import SearchSql.Proofs.Catalog.Column

/-!
# The key field

The options of an index may set its key field. Its name is read in the wider sense of letters, in
which those that fold to an ASCII letter count as one, so a name ends where no such letter follows
(`IsKey.keyValue?_eq`). A definition that ends with the options gives the key they begin with
(`IsTail.exists_options`).
-/

namespace SearchSql.Catalog

open Name (IsWord IsNameChar)

/-- A text that begins with a key, plain or between two quotes of one kind. -/
inductive IsKey : List Char → List Char → Prop where
  | plain {key more : List Char} (isWord : IsWord key)
    (ends : ∀ c ∈ more.head?, ¬ IsNameChar (foldCase c)) : IsKey (key ++ more) key
  | inQuotes {mark : Char} {key more : List Char} (isQuote : isQuote mark = true)
    (isWord : IsWord key) : IsKey (mark :: (key ++ mark :: more)) key

/-- What may stand behind the columns, and the key field that it sets. -/
inductive IsTail : List Char → Option String → Prop where
  | nothing : IsTail [] none
  | options {s : List Char} {key : String} (isKey : IsKey s key.toList) :
    IsTail (" WITH (key_field=".toList ++ (s ++ [')'])) (some key)

/-! ## Words in the wider sense -/

/-- What holds of all letters does not tell them apart by their case. -/
theorem apply_toLower {p : Char → Bool} (letters : ∀ c : Char, c.isAlpha = true → p c = true)
    (c : Char) : p c.toLower = p c := by
  by_cases upper : c.isUpper = true
  · have letter : c.isAlpha = true := Text.isAlpha_iff.mpr (Or.inl upper)
    have small : c.toLower.isAlpha = true := by rw [Text.isAlpha_toLower, letter]
    rw [letters c letter, letters _ small]
  · rw [Text.toLower_eq_self (Bool.eq_false_iff.mpr upper)]

theorem isNamePart_toLower (c : Char) : isNamePart c.toLower = isNamePart c :=
  apply_toLower (fun c letter => by simp [isNamePart, Char.isAlphanum, letter]) c

theorem isNameStart_toLower (c : Char) : isNameStart c.toLower = isNameStart c :=
  apply_toLower (fun c letter => by simp [isNameStart, letter]) c

theorem foldCase_of_isNameChar {c : Char} (h : IsNameChar c) : foldCase c = c.toLower :=
  foldCase_eq_toLower (p := isNamePart) (by decide) (Name.isPart_iff.mpr h)

/-- The first word of a text in the wider sense of letters. -/
def wideWord? : List Char → Option (List Char)
  | [] => none
  | c :: s =>
    if isNameStart (foldCase c) then some (c :: s.takeWhile fun d => isNamePart (foldCase d))
    else none

theorem wideWord?_append {word rest : List Char} (isWord : IsWord word)
    (ends : ∀ c ∈ rest.head?, ¬ IsNameChar (foldCase c)) :
    wideWord? (word ++ rest) = some word := by
  cases word with
  | nil => exact absurd rfl isWord.nonempty
  | cons c word =>
    obtain ⟨start, -⟩ := Name.isWord_cons.mp isWord
    obtain ⟨first, others⟩ := List.forall_mem_cons.mp isWord.chars
    have wideStart : isNameStart (foldCase c) = true := by
      rw [foldCase_of_isNameChar first, isNameStart_toLower]
      exact start
    have wideParts : ∀ d ∈ word, isNamePart (foldCase d) = true := by
      intro d hd
      rw [foldCase_of_isNameChar (others d hd), isNamePart_toLower]
      exact Name.isPart_iff.mpr (others d hd)
    have stops : StopsAt (fun d => isNamePart (foldCase d)) rest := by
      intro d hd
      rw [Bool.eq_false_iff]
      exact fun part => ends d hd (Name.isPart_iff.mp part)
    rw [List.cons_append, wideWord?, if_pos wideStart, takeWhile_part wideParts stops]

/-! ## The key in the options -/

theorem keyValue?_eq (s : List Char) :
    keyValue? ('=' :: s) =
      wideWord? (skipChar Text.quotationMark (skipChar Text.apostrophe (skipBlanks s))) := rfl

theorem IsKey.keyValue?_eq {s key : List Char} (h : IsKey s key) :
    keyValue? ('=' :: s) = some key := by
  rw [Catalog.keyValue?_eq]
  cases h with
  | @plain key more isWord ends =>
    rw [skipBlanks_word isWord, skipChar_word isWord (by decide), skipChar_word isWord (by decide)]
    exact wideWord?_append isWord ends
  | @inQuotes mark key more isQuote isWord =>
    have quotes : mark = Text.apostrophe ∨ mark = Text.quotationMark := by
      simpa [Catalog.isQuote] using isQuote
    have closing : isNamePart (foldCase mark) = false := by
      rcases quotes with rfl | rfl <;> decide
    have inside : wideWord? (key ++ mark :: more) = some key := by
      refine wideWord?_append isWord ?_
      rintro c ⟨⟩
      rw [← Name.isPart_iff, Bool.not_eq_true]
      exact closing
    have solid {c : Char} (h : Text.isBlank c = false) (s : List Char) :
        skipBlanks (c :: s) = c :: s := skipBlanks_append (List.forall_mem_nil _) (stopsAt_cons h)
    rcases quotes with rfl | rfl
    · rw [solid (by decide), skipChar_self, skipChar_word isWord (by decide), inside]
    · rw [solid (by decide), skipChar_of_ne (by decide), skipChar_self, inside]

theorem IsKey.keyField?_eq {s key : List Char} (h : IsKey s key) :
    keyField? ("key_field=".toList ++ s) = some key := by
  have found : (afterWord? "key_field".toList ("key_field=".toList ++ s)).bind keyValue? =
      some key := by
    have name : afterWord? "key_field".toList ("key_field=".toList ++ s) = some ('=' :: s) :=
      afterWord?_eq_some_iff.mpr ⟨"key_field".toList, by decide, rfl⟩
    rw [name, Option.bind_some, h.keyValue?_eq]
  have first : "key_field=".toList ++ s = 'k' :: ("ey_field=".toList ++ s) := rfl
  rw [first, keyField?, ← first, found]

theorem isTurn_with : IsTurn ") WITH (".toList := by
  have blank : IsBlanks [' '] := List.forall_mem_singleton.mpr (by decide)
  exact @IsTurn.intro [' '] "WITH".toList [' '] blank (List.cons_ne_nil _ _)
    (by unfold IsCased; decide) blank

/-- The end of a definition is read, and the key field in it is found. -/
theorem IsTail.exists_options {tail : List Char} {key : Option String} (h : IsTail tail key) :
    ∃ options, readTail? tail = some options ∧
      options.bind keyField? = key.map String.toList := by
  cases h with
  | nothing => exact ⟨none, rfl, rfl⟩
  | @options s key isKey =>
    refine ⟨some ("key_field=".toList ++ s), ?_, isKey.keyField?_eq⟩
    exact readTail?_options isTurn_with ("key_field=".toList ++ s)

end SearchSql.Catalog
