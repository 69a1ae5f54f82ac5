import SearchSql.Catalog.Discovery
import SearchSql.Proofs.Catalog.KeyField
import SearchSql.Proofs.Schema.Construction

/-!
# Reading a definition

A definition whose columns are clear is read column by column (`IsClear.readIndex_eq`). If each of
them is an identifier, plain or in quotation marks, or an expression that begins with one, the index
has just these fields, and its key field is the one that the options set
(`definition_recovers_columns`). A name in quotation marks that is no identifier is not read in full
(`quoted_column_read_as_first_word`).
-/

namespace SearchSql.Catalog

open Name (IsWord IsNameChar)

/-- The definition of an index, from what stands before `USING` to what stands behind its columns. -/
def definition (before : List Char) (items : List (List Char)) (tail : List Char) : String :=
  String.ofList (before ++ ("USING bm25 (".toList ++ (comma.intercalate items ++ ')' :: tail)))

/-- Definitions whose columns are clear: they close, and neither what begins nor what ends a list of
columns stands where it should not. -/
structure IsClear (before : List Char) (items : List (List Char)) : Prop where
  first : ∀ opening, IsOpening opening → ¬ opening <:+: before
  closed : ∀ item ∈ items, Closes item
  inner : ∀ item ∈ items, ∀ turn, IsTurn turn → ¬ turn <:+: item

variable {before tail : List Char} {items : List (List Char)} {table index : String}

theorem isOpening_using : IsOpening "USING bm25 (".toList := by
  have blank : IsBlanks [' '] := List.forall_mem_singleton.mpr (by decide)
  exact @IsOpening.intro "USING".toList [' '] "bm25".toList [' '] (by unfold IsCased; decide) blank
    (List.cons_ne_nil _ _) (by unfold IsCased; decide) blank

/-- In a clear definition just its columns are found. -/
theorem IsClear.readParts?_eq (h : IsClear before items) {options : Option (List Char)}
    (htail : readTail? tail = some options) :
    readParts? (definition before items tail).toList = some ⟨comma.intercalate items, options⟩ := by
  rw [definition, String.toList_ofList]
  refine readParts?_definition isOpening_using h.first ?_ htail
  intro turn hturn inside
  obtain ⟨item, hitem, found⟩ := hturn.exists_item inside
  exact h.inner item hitem turn hturn found

/-- A clear definition is read column by column. -/
theorem IsClear.readIndex_eq (h : IsClear before items) {options : Option (List Char)}
    (htail : readTail? tail = some options) {names : List String}
    (hnames : columnNames [] (tidyItems items) = .ok names) (table index : String) :
    readIndex table index (definition before items tail) =
      (SearchIndex.build table (.list ((fieldsAndKey names options).1.map .text)) (some index)
        (fieldsAndKey names options).2).mapError .schema := by
  rw [← splitTopLevel_join h.closed] at hnames
  rw [readIndex, h.readParts?_eq htail]
  simp only [hnames]

theorem IsClear.readIndex_eq_error (h : IsClear before items) {options : Option (List Char)}
    (htail : readTail? tail = some options) {column : String}
    (hnames : columnNames [] (tidyItems items) = .error column) (table index : String) :
    readIndex table index (definition before items tail) =
      .error (.unreadableColumn index column) := by
  rw [← splitTopLevel_join h.closed] at hnames
  rw [readIndex, h.readParts?_eq htail]
  simp only [hnames]

/-! ## Columns that are read in full -/

/-- The fields and the key field of an index with these columns, whose options may set a key. -/
def withKey (names : List String) : Option String → List String × Option String
  | none => (names, names.head?)
  | some key => (if key ∈ names then names else key :: names, some key)

theorem fieldsAndKey_eq {options : Option (List Char)} {key : Option String}
    (h : options.bind keyField? = key.map String.toList) (names : List String) :
    fieldsAndKey names options = withKey names key := by
  rw [fieldsAndKey, h]
  cases key with
  | none => rfl
  | some k => simp [withKey]

/-- The key field is one of the fields, which are distinct if the columns are. -/
theorem withKey_fit {names : List String} (distinct : names.Nodup) (given : names ≠ [])
    (key : Option String) :
    (∀ f ∈ (withKey names key).1, f ∈ names ∨ f ∈ key) ∧ (withKey names key).1.Nodup ∧
      (withKey names key).1 ≠ [] ∧ ∀ k ∈ (withKey names key).2, k ∈ (withKey names key).1 := by
  cases key with
  | none => exact ⟨fun f hf => .inl hf, distinct, given, fun k hk => List.mem_of_mem_head? hk⟩
  | some k =>
    by_cases known : k ∈ names
    · simp only [withKey, if_pos known]
      exact ⟨fun f hf => .inl hf, distinct, given, by rintro _ ⟨⟩; exact known⟩
    · simp only [withKey, if_neg known]
      refine ⟨?_, distinct.cons known, List.cons_ne_nil _ _, ?_⟩
      · exact fun f hf => (List.mem_cons.mp hf).elim (fun same => .inr (same ▸ rfl)) .inl
      · rintro _ ⟨⟩
        exact List.mem_cons_self

/-- Reading a definition recovers its columns and its key field. -/
theorem definition_recovers_columns {names : List String} {key : Option String}
    (first : ∀ opening, IsOpening opening → ¬ opening <:+: before)
    (columns : List.Forall₂ (fun item name => IsColumn item name.toList) items names)
    (filled : items ≠ [])
    (inner : ∀ item ∈ items, ∀ turn, IsTurn turn → ¬ turn <:+: item) (htail : IsTail tail key)
    (relation : Name.checkRelation table = .ok ())
    (name : Name.checkRelation (SearchIndex.givenName table (some index)) = .ok ())
    (valid : ∀ f, f ∈ names ∨ f ∈ key → Name.check f = .ok ()) :
    ∃ found, readIndex table index (definition before items tail) = .ok found ∧
      found.relation = table ∧ found.name = SearchIndex.givenName table (some index) ∧
      (key = none → found.fieldNames = names.eraseDups ∧ found.keyField = names.head?) ∧
      ∀ k, key = some k → found.keyField = some k ∧
        found.fieldNames = if k ∈ names then names.eraseDups else k :: names.eraseDups := by
  have clear : IsClear before items := by
    refine ⟨first, ?_, inner⟩
    intro item hitem
    obtain ⟨name, -, column⟩ := exists_of_forall₂ columns hitem
    exact column.closes
  obtain ⟨options, hoptions, hkey⟩ := htail.exists_options
  have filled : names.eraseDups ≠ [] ∧ names.eraseDups.head? = names.head? := by
    cases columns with
    | nil => exact absurd rfl filled
    | cons _ _ => rw [List.eraseDups_cons]; exact ⟨List.cons_ne_nil _ _, rfl⟩
  obtain ⟨fields, distinct, nonempty, known⟩ := withKey_fit (nodup_eraseDups names) filled.1 key
  have built := SearchIndex.build_names_eq_ok_iff.mpr ⟨relation, name,
    fun f hf => valid f ((fields f hf).imp_left List.mem_eraseDups.mp), distinct, nonempty, known, rfl⟩
  have read : readIndex table index (definition before items tail) =
      (SearchIndex.build table (.list ((withKey names.eraseDups key).1.map .text)) (some index)
        (withKey names.eraseDups key).2).mapError .schema := by
    rw [clear.readIndex_eq hoptions (columnNames_eq_eraseDups columns), fieldsAndKey_eq hkey]
  refine ⟨_, read.trans (Except.mapError_eq_ok.mpr built), rfl, rfl, ?_, ?_⟩
  · rintro rfl
    exact ⟨rfl, filled.2⟩
  · rintro k rfl
    simp only [withKey, List.mem_eraseDups, true_and]

theorem isWord_of_checked (name : String) (checked : Name.check name = .ok ())
    (unfed : '\n' ∉ name.toList) : IsWord name.toList :=
  (Name.isIdentifier_iff_check.mpr ⟨checked, unfed⟩).word

/-- An expression, a column twice, once in quotation marks, and a key that is no column. -/
theorem columns_of_calls_recovered :
    ∃ found, readIndex "calls" "calls_idx" (definition "CREATE INDEX calls_idx ON calls ".toList
        ["(description::pdb.simple('stemmer=english'))".toList, quoted "rating".toList,
          "rating".toList] " WITH (key_field='id')".toList) = .ok found ∧
      found.fieldNames = ["id", "description", "rating"] ∧ found.keyField = some "id" := by
  have description : IsWord "description".toList := isWord_of_checked _ rfl (by decide)
  have rating : IsWord "rating".toList := isWord_of_checked _ rfl (by decide)
  have expression : IsColumn "(description::pdb.simple('stemmer=english'))".toList
      "description".toList := by
    have closes : Closes "(description::pdb.simple('stemmer=english'))".toList := by
      decide +kernel
    have split : "(description::pdb.simple('stemmer=english'))".toList =
        ['('] ++ ("description".toList ++ "::pdb.simple('stemmer=english'))".toList) := rfl
    rw [split] at closes ⊢
    exact .inParentheses (List.forall_mem_singleton.mpr rfl) (List.cons_ne_nil _ _) description
      (by rintro _ ⟨⟩; decide) closes
  have key : IsKey "'id'".toList "id".toList :=
    @IsKey.inQuotes Text.apostrophe _ [] rfl (isWord_of_checked "id" rfl (by decide))
  have solid : ∀ item ∈ ["(description::pdb.simple('stemmer=english'))".toList,
      quoted "rating".toList, "rating".toList], item.any Text.isBlank = false := by
    simp only [List.forall_mem_cons]
    exact ⟨by decide, by decide, by decide, List.forall_mem_nil _⟩
  have valid : ∀ f ∈ ["id", "description", "rating"], Name.check f = .ok () := by
    simp only [List.forall_mem_cons]
    exact ⟨rfl, rfl, rfl, List.forall_mem_nil _⟩
  have unopened : '(' ∉ "CREATE INDEX calls_idx ON calls ".toList := by decide
  obtain ⟨found, read, -, -, -, keyed⟩ := definition_recovers_columns
    (fun opening h => h.not_infix unopened)
    (.cons expression (.cons (.inQuotes rating) (.cons (.plain rating) .nil)))
    (List.cons_ne_nil _ _) (fun item hitem turn h => h.not_infix (solid item hitem)) (.options key)
    (show Name.checkRelation "calls" = .ok () from rfl)
    (show Name.checkRelation (SearchIndex.givenName _ (some "calls_idx")) = .ok () from rfl)
    (fun f hf => valid f (by simpa [or_comm, eq_comm] using hf))
  obtain ⟨key, fields⟩ := keyed "id" rfl
  exact ⟨found, read, fields, key⟩

/-- A letter that folds to one of ASCII goes on with a key, although it belongs to no identifier, and
the name that is read is then refused. -/
theorem folded_letter_continues_key :
    (∀ opening, IsOpening opening → ¬ opening <:+: "CREATE INDEX i ON t ".toList) ∧
    IsColumn "id".toList "id".toList ∧ (∀ turn, IsTurn turn → ¬ turn <:+: "id".toList) ∧
    ¬ IsNameChar 'ſ' ∧ (∀ name ∈ ["t", "i", "id"], Name.check name = .ok ()) ∧
    readIndex "t" "i" (definition "CREATE INDEX i ON t ".toList ["id".toList]
        (" WITH (key_field=".toList ++ (("id".toList ++ ['ſ']) ++ [')']))) =
      .error (.schema (.name (.malformed "idſ"))) := by
  refine ⟨?_, .plain (isWord_of_checked "id" rfl (by decide)), ?_, by decide, ?_, by rfl⟩
  · exact fun opening h => h.not_infix (by decide)
  · exact fun turn h => h.not_infix (by decide)
  · simp only [List.forall_mem_cons]
    exact ⟨rfl, rfl, rfl, List.forall_mem_nil _⟩

/-! ## Columns in quotation marks -/

/-- In a clear definition without options, each column in quotation marks is read as the first word
between them. -/
theorem quoted_column_read_as_first_word (h : IsClear before items)
    (tidy : ∀ item ∈ items, item ≠ [] ∧ Text.trim item = item) (table index : String) :
    (∀ found, readIndex table index (definition before items []) = .ok found →
      ∃ names : List String, found.fieldNames = names.eraseDups ∧
        List.Forall₂ (fun item name => ∀ s, item = quoted s →
          IsFirstWord name.toList s ∧ (name.toList = s ↔ IsWord s)) items names) ∧
    (∀ s, quoted s ∈ items → (∀ word, ¬ IsFirstWord word s) →
      ∃ column, readIndex table index (definition before items []) =
        .error (.unreadableColumn index column)) := by
  have none : readTail? [] = some none := rfl
  have asked := tidyItems_eq_self tidy
  constructor
  · intro found hfound
    cases hnames : columnNames [] items with
    | error column =>
      rw [← asked] at hnames
      cases (h.readIndex_eq_error none hnames table index).symm.trans hfound
    | ok names =>
      obtain ⟨given, hgiven, rfl⟩ := columnNames_eq_ok_iff.mp hnames
      rw [← asked] at hnames
      rw [h.readIndex_eq none hnames, Except.mapError_eq_ok] at hfound
      obtain ⟨-, -, -, -, -, -, rfl⟩ := SearchIndex.build_names_eq_ok_iff.mp hfound
      refine ⟨given, by simp [fieldsAndKey, List.removeAll], hgiven.imp ?_⟩
      rintro item name hname s rfl
      have hword := leadingName?_quoted.mp hname
      refine ⟨hword, fun same => same ▸ hword.isWord, fun isWord => ?_⟩
      exact hword.unique (isFirstWord_self isWord)
  · intro s hs unreadable
    cases hnames : columnNames [] items with
    | error column =>
      rw [← asked] at hnames
      exact ⟨column, h.readIndex_eq_error none hnames table index⟩
    | ok names =>
      obtain ⟨given, hgiven, -⟩ := columnNames_eq_ok_iff.mp hnames
      obtain ⟨word, -, hword⟩ := exists_of_forall₂ hgiven hs
      exact absurd (leadingName?_quoted.mp hword) (unreadable word.toList)

/-- A column in quotation marks that begins with a digit is refused. -/
theorem first_column_refused :
    ∃ column, readIndex "t" "i"
        (definition "CREATE INDEX i ON t ".toList ["id".toList, quoted "1st".toList] []) =
      .error (.unreadableColumn "i" column) := by
  have id : Closes "id".toList := closes_of_isWord (isWord_of_checked "id" rfl (by decide))
  have clear : IsClear "CREATE INDEX i ON t ".toList ["id".toList, quoted "1st".toList] := by
    refine ⟨fun opening h => h.not_infix (by decide), ?_, ?_⟩
    · simp only [List.forall_mem_cons]
      exact ⟨id, closes_quoted (by decide), List.forall_mem_nil _⟩
    · simp only [List.forall_mem_cons]
      refine ⟨?_, ?_, List.forall_mem_nil _⟩
      · exact fun turn h => h.not_infix (by decide)
      · exact fun turn h => h.not_infix (by decide)
  have tidy : ∀ item ∈ ["id".toList, quoted "1st".toList], item ≠ [] ∧ Text.trim item = item := by
    simp only [List.forall_mem_cons]
    exact ⟨⟨by decide, rfl⟩, ⟨by decide, rfl⟩, List.forall_mem_nil _⟩
  have none : ∀ word, ¬ IsFirstWord word "1st".toList := by
    intro word h
    cases firstWord?_eq_some_iff.mpr h
  refine (quoted_column_read_as_first_word clear tidy "t" "i").2 "1st".toList ?_ none
  exact List.mem_cons_of_mem _ List.mem_cons_self

/-- A column in quotation marks with a space in it is read as the field that its first word names,
without an error. -/
theorem due_date_read_as_due :
    readIndex "t" "i"
        (definition "CREATE INDEX i ON t ".toList ["id".toList, quoted "due date".toList] []) =
      .ok ⟨"t", "i", ["id", "due"], some "id"⟩ := by rfl

end SearchSql.Catalog
