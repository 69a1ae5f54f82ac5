import SearchSql.Proofs.Call.Numbering

/-!
# Emission of a call

A call is emitted by filling its template, inline or with placeholders, unless a limit stops it
(`emit_cases`). It has no template only if some value is no literal or some node cannot be
written (`emit_error`).
-/

namespace SearchSql

theorem Draft.extend_empty (settings : Settings) (first : Int) (t : Template) :
    Draft.empty.extend settings first t = ⟨t.written settings first, t.values settings⟩ := by
  simp [extend, empty]

namespace SearchTree

variable {settings : Settings} {first : Int} {tree : SearchTree}

/-- The expression for the search with this text and these parameters. -/
def expression (tree : SearchTree) (sql : String) (parameters : List Value) : Expression :=
  ⟨tree.binding.aliasName, tree.binding.relation, tree.binding.index.name, sql, parameters⟩

/-- The template of the search call in a dialect. -/
def template? (tree : SearchTree) (dialect : Dialect) : Option Template :=
  (dialect.style.searchCall tree).template?

/-- The search call filled in by its template. -/
def filled (tree : SearchTree) (settings : Settings) (first : Int) (t : Template) : Expression :=
  tree.expression (t.written settings first) (t.values settings)

/-- The end of emission: the length is checked once more. -/
def finish (tree : SearchTree) (settings : Settings) (draft : Draft) :
    Except EmissionError Expression :=
  (draft.checkLimits settings 0).map fun _ => tree.expression draft.text draft.parameters

theorem emit_eq (tree : SearchTree) (settings : Settings) (first : Int) :
    tree.emit settings first =
      ((settings.dialect.style.searchCall tree).play settings first).bind
        (tree.finish settings) := rfl

theorem emit_cases {t : Template} (h : tree.template? settings.dialect = some t) :
    ((t.written settings first).length ≤ settings.maxLength ∧
      tree.emit settings first = .ok (tree.filled settings first t)) ∨
    (∃ d : ℕ, d ≤ tree.root.depth ∧ settings.maxDepth < d ∧
      tree.emit settings first = .error (.depth d settings.maxDepth)) ∨
    (settings.maxLength < (t.written settings first).length ∧
      tree.emit settings first = .error (.length settings.maxLength)) := by
  rw [emit_eq, Script.play]
  rcases @Script.play_cases settings first _ t h Draft.empty with hplay | ⟨d, hd, deep, hplay⟩ | long
  · rw [hplay, Draft.extend_empty]
    rcases Draft.checkLimits_cases settings 0 ⟨t.written settings first, t.values settings⟩ with
      ⟨hok, -, hl⟩ | ⟨deep, herr⟩ | ⟨hl, herr⟩
    · exact Or.inl ⟨hl, by simp [Except.bind, finish, hok, Except.map, filled]⟩
    · refine Or.inr (Or.inl ⟨0, Nat.zero_le _, deep, ?_⟩)
      simp [Except.bind, finish, herr, Except.map]
    · exact Or.inr (Or.inr ⟨hl, by simp [Except.bind, finish, herr, Except.map]⟩)
  · have inside : d ≤ tree.root.depth := by
      have := tree.mem_searchCall settings.dialect.style_plain _ hd
      cases this
      assumption
    exact Or.inr (Or.inl ⟨d, inside, deep, by rw [hplay]; rfl⟩)
  · obtain ⟨hl, hplay⟩ := long
    rw [Draft.extend_empty] at hl
    exact Or.inr (Or.inr ⟨hl, by rw [hplay]; rfl⟩)

theorem emit_within {t : Template} (h : tree.template? settings.dialect = some t)
    (hd : (tree.root.depth : Int) ≤ settings.maxDepth)
    (hl : (t.written settings first).length ≤ settings.maxLength) :
    tree.emit settings first = .ok (tree.filled settings first t) := by
  rcases @emit_cases settings first tree t h with ⟨-, hok⟩ | ⟨d, inside, deep, -⟩ | ⟨long, -⟩
  · exact hok
  · omega
  · omega

/-- What is emitted has a template, which it fills. -/
theorem exists_template_of_emit {e : Expression} (h : tree.emit settings first = .ok e) :
    ∃ t, tree.template? settings.dialect = some t ∧ e = tree.filled settings first t := by
  have ⟨t, ht⟩ : ∃ t, tree.template? settings.dialect = some t := by
    rw [emit_eq] at h
    cases hplay : (settings.dialect.style.searchCall tree).play settings first with
    | error e' =>
      rw [hplay] at h
      cases h
    | ok draft => exact Script.exists_template_of_play hplay
  refine ⟨t, ht, ?_⟩
  rcases @emit_cases settings first tree t ht with ⟨-, hok⟩ | ⟨d, -, -, herr⟩ | ⟨-, herr⟩
  · rw [hok] at h
    cases h
    rfl
  · rw [herr] at h
    cases h
  · rw [herr] at h
    cases h

/-- What validation says of a tree: what its leaves compare with are literals, and its options have
values that they accept. -/
structure IsValidated (tree : SearchTree) : Prop where
  literals : ∀ v ∈ tree.root.literals, v.IsLiteral
  options : ∀ o v, tree.options.get? o = some v → o.accepts v = true

end SearchTree

theorem SearchOption.isLiteral_of_accepts {o : SearchOption} {v : Value}
    (h : o.accepts v = true) : v.IsLiteral := by
  unfold accepts at h
  split at h
  · exact Value.isLiteral_bool _
  · exact Value.isLiteral_int _
  · exact Value.isLiteral_int _
  · cases h

namespace SearchTree

variable {settings : Settings} {first : Int} {tree : SearchTree}

/-- The optional arguments need no validation: their types leave only literals. -/
theorem IsValidated.isLiteral (h : tree.IsValidated) {dialect : Dialect} {v : Value}
    {argument : Option Argument} (hs : .slot v argument ∈ dialect.style.searchCall tree) :
    v.IsLiteral := by
  cases tree.mem_searchCall dialect.style_plain _ hs with
  | slot _ _ origin =>
    rcases origin with literal | ⟨w, hw, same⟩ | ⟨o, ho⟩
    · exact literal
    · obtain ⟨literal, hl⟩ := h.literals w hw
      exact ⟨literal, same.trans hl⟩
    · exact SearchOption.isLiteral_of_accepts (h.options o v ho)

/-- A validated tree of known nodes has a template. -/
theorem IsValidated.exists_template (h : tree.IsValidated)
    (known : ∀ n, .foreign n ∉ tree.root.nodes) (dialect : Dialect) :
    ∃ t, tree.template? dialect = some t := by
  apply Script.exists_template
  · intro v argument hs
    exact h.isLiteral hs
  · intro n hn
    cases tree.mem_searchCall dialect.style_plain _ hn with
    | unsupported _ hforeign => exact known n hforeign

/-- The emission of a validated tree can fail at a limit or at a node of an unknown type. -/
theorem IsValidated.emit_error (h : tree.IsValidated) {e : EmissionError}
    (he : tree.emit settings first = .error e) :
    (∃ d, e = .depth d settings.maxDepth) ∨ e = .length settings.maxLength ∨
    (∃ n, e = .unsupported n ∧ .foreign n ∈ tree.root.nodes) := by
  rw [emit_eq] at he
  cases hplay : (settings.dialect.style.searchCall tree).play settings first with
  | error e' =>
    rw [hplay] at he
    cases he
    obtain ⟨step, hmem, draft, hstep⟩ := Script.exists_step_of_play_error hplay
    rcases Draft.play_error hstep with deep | long | ⟨n, rfl, rfl⟩ | ⟨v, argument, rfl, hv⟩
    · exact Or.inl deep
    · exact Or.inr (Or.inl long)
    · cases tree.mem_searchCall settings.dialect.style_plain _ hmem with
      | unsupported _ hforeign => exact Or.inr (Or.inr ⟨n, rfl, hforeign⟩)
    · exact absurd (h.isLiteral hmem) hv
  | ok draft =>
    rw [hplay] at he
    rcases Draft.checkLimits_cases settings 0 draft with ⟨hok, -⟩ | ⟨-, herr⟩ | ⟨-, herr⟩
    · simp [Except.bind, finish, hok, Except.map] at he
    · simp only [Except.bind, finish, herr, Except.map, Except.error.injEq] at he
      exact Or.inl ⟨0, he.symm⟩
    · simp only [Except.bind, finish, herr, Except.map, Except.error.injEq] at he
      exact Or.inr (Or.inl he.symm)

/-- No name in the call can be taken for a placeholder. -/
structure HasPlainNames (tree : SearchTree) : Prop where
  index : Plain tree.binding.index.name
  fields : ∀ f ∈ tree.root.fields, Plain f

theorem HasPlainNames.isPlain (h : tree.HasPlainNames) {dialect : Dialect} {t : Template}
    (ht : tree.template? dialect = some t) : t.IsPlain := by
  apply Script.isPlain_template ht
  intro s hs
  cases tree.mem_searchCall dialect.style_plain _ hs with
  | text _ plain => exact plain h.index h.fields

theorem isChain_template {dialect : Dialect} {t : Template}
    (ht : tree.template? dialect = some t) : t.IsChain Piece.AllowsNext :=
  Script.isChain_template ht (Style.isChain_searchCall dialect.closesNumber_arrayClose tree)

/-! ## Numbering -/

/-- The text has the placeholder with the number `k` in the place of a literal, and `v` is the value
of that literal. The numbers start with `first`. -/
def Binds (tree : SearchTree) (dialect : Dialect) (first : Int) (sql : String) (k : Int)
    (v : Value) : Prop :=
  ∃ (before : Template) (literal : Literal) (argument : Option Argument) (after : Template),
    tree.template? dialect = some (before ++ .slot literal argument :: after) ∧
    literal.kind ≠ .boolean ∧ v = literal.value ∧
    sql = before.bound dialect.style first ++ dialect.style.placeholder k argument literal ++
      after.bound dialect.style (k + 1)

section Numbered

variable {dialect : Dialect} {maxDepth maxLength : Int} {e : Expression}

/-- What is emitted with placeholders is the bound text of the template. -/
theorem bound_of_emit (he : tree.emit ⟨dialect, true, maxDepth, maxLength⟩ first = .ok e) :
    ∃ t, tree.template? dialect = some t ∧
      e = tree.expression (t.bound dialect.style first) t.parameters :=
  exists_template_of_emit he

theorem placeholders_of_emit (names : tree.HasPlainNames)
    (he : tree.emit ⟨dialect, true, maxDepth, maxLength⟩ first = .ok e) :
    placeholders e.sql = block first e.parameters.length := by
  obtain ⟨t, ht, rfl⟩ := bound_of_emit he
  rw [expression, Template.parameters, List.length_map]
  exact Template.placeholders_bound (names.isPlain ht) (isChain_template ht) first

theorem parameters_of_emit {first' maxDepth' maxLength' : Int} {e' : Expression}
    (he : tree.emit ⟨dialect, true, maxDepth, maxLength⟩ first = .ok e)
    (he' : tree.emit ⟨dialect, true, maxDepth', maxLength'⟩ first' = .ok e') :
    e'.parameters = e.parameters := by
  obtain ⟨t, ht, rfl⟩ := bound_of_emit he
  obtain ⟨t', ht', rfl⟩ := bound_of_emit he'
  cases ht.symm.trans ht'
  rfl

/-- From another first number on, the same call is emitted with its placeholders renumbered. -/
theorem renumber_of_emit {first' maxDepth' maxLength' : Int} {e' : Expression}
    (names : tree.HasPlainNames)
    (he : tree.emit ⟨dialect, true, maxDepth, maxLength⟩ first = .ok e)
    (he' : tree.emit ⟨dialect, true, maxDepth', maxLength'⟩ first' = .ok e') :
    e' = { e with sql := renumber (first' - first) e.sql } := by
  obtain ⟨t, ht, rfl⟩ := bound_of_emit he
  obtain ⟨t', ht', rfl⟩ := bound_of_emit he'
  cases ht.symm.trans ht'
  have onward : first + (first' - first) = first' := by omega
  have shifted := @Template.renumber_bound dialect.style t (names.isPlain ht)
    (isChain_template ht) first (first' - first)
  rw [onward] at shifted
  simp only [expression, shifted]

theorem binds_of_emit (he : tree.emit ⟨dialect, true, maxDepth, maxLength⟩ first = .ok e)
    {i : ℕ} {v : Value} (hi : e.parameters[i]? = some v) :
    tree.Binds dialect first e.sql (first + i) v := by
  obtain ⟨t, ht, rfl⟩ := bound_of_emit he
  rw [expression, Template.parameters, List.getElem?_map] at hi
  obtain ⟨literal, hl, rfl⟩ := Option.map_eq_some_iff.mp hi
  obtain ⟨before, argument, after, rfl, hk, htext⟩ :=
    @Template.bound_around dialect.style t i literal hl first
  exact ⟨before, literal, argument, after, ht, hk, rfl, htext⟩

end Numbered

/-! ## Agreement -/

/-- The inline text and the bound text of a validated tree of known nodes fill one template. In the
shorthand, the literals can be put back in place of their placeholders. -/
theorem emissions_agree (dialect : Dialect) (tree : SearchTree)
    (known : ∀ n, .foreign n ∉ tree.root.nodes) (validated : tree.IsValidated) :
    ∃ t : Template, tree.template? dialect = some t ∧
      (∀ first maxDepth maxLength : Int, tree.root.depth ≤ maxDepth →
        ((t.inline dialect.style).length ≤ maxLength →
          tree.emit ⟨dialect, false, maxDepth, maxLength⟩ first =
            .ok (tree.expression (t.inline dialect.style) [])) ∧
        ((t.bound dialect.style first).length ≤ maxLength →
          tree.emit ⟨dialect, true, maxDepth, maxLength⟩ first =
            .ok (tree.expression (t.bound dialect.style first) t.parameters))) ∧
      (∀ (first maxDepth maxLength : Int) e,
        (tree.emit ⟨dialect, false, maxDepth, maxLength⟩ first = .ok e →
          e = tree.expression (t.inline dialect.style) []) ∧
        (tree.emit ⟨dialect, true, maxDepth, maxLength⟩ first = .ok e →
          e = tree.expression (t.bound dialect.style first) t.parameters)) ∧
      (dialect = .shorthand → tree.HasPlainNames → ∀ (first : Int) (f : Int → String),
        (∀ (i : ℕ) literal, t.boundLiterals[i]? = some literal →
          f (first + i) = dialect.style.literalText literal) →
        substitute f (t.bound dialect.style first) = t.inline dialect.style) := by
  obtain ⟨t, ht⟩ := validated.exists_template known dialect
  refine ⟨t, ht, ?_, ?_, ?_⟩
  · intro first maxDepth maxLength hd
    constructor
    · intro hl
      exact @emit_within ⟨dialect, false, maxDepth, maxLength⟩ first tree t ht hd hl
    · intro hl
      exact @emit_within ⟨dialect, true, maxDepth, maxLength⟩ first tree t ht hd hl
  · intro first maxDepth maxLength e
    constructor
    · intro he
      obtain ⟨t', ht', rfl⟩ := exists_template_of_emit he
      cases ht.symm.trans ht'
      rfl
    · intro he
      obtain ⟨t', ht', rfl⟩ := exists_template_of_emit he
      cases ht.symm.trans ht'
      rfl
  · rintro rfl names first f hf
    exact Template.substitute_bound (names.isPlain ht) (isChain_template ht) rfl first hf

/-- A search for `g$7` in a field `a`, give or take one letter. -/
def fuzzySearch : SearchTree where
  binding := ⟨"d", "d", ⟨"d", "i", ["a"], none⟩⟩
  root := .fuzzy "a" "g$7" ⟨some 1, none, some true⟩
  options := [(.limitRows, .int 3)]

theorem isValidated_fuzzySearch : fuzzySearch.IsValidated := by
  constructor
  · intro v hv
    rw [Predicate.literals, Predicate.nodes_eq_preorder] at hv
    cases List.mem_singleton.mp hv
    exact ⟨.string "g$7", rfl⟩
  · intro o v ho
    cases o with
    | limitRows => cases ho; rfl
    | offsetRows => cases ho
    | stableSort => cases ho

theorem hasPlainNames_fuzzySearch : fuzzySearch.HasPlainNames := by
  constructor
  · exact (by decide : Plain "i")
  · intro f hf
    rw [Predicate.fields, Predicate.nodes_eq_preorder] at hf
    cases List.mem_singleton.mp hf
    decide

theorem emissions_of_fuzzySearch_agree :
    ∃ t : Template,
      t.inline Dialect.shorthand.style = "i.search(query => fuzzy_term(field=>'a', " ++
        "value=>'g$7', distance=>1, prefix=>true), limit_rows => 3)" ∧
      t.bound Dialect.shorthand.style 7 = "i.search(query => fuzzy_term(field=>'a', " ++
        "value=>$7, distance=>$8, prefix=>true), limit_rows => $9)" ∧
      fuzzySearch.emit ⟨.shorthand, false, 1, 99⟩ 7 =
        .ok (fuzzySearch.expression (t.inline Dialect.shorthand.style) []) ∧
      fuzzySearch.emit ⟨.shorthand, true, 1, 99⟩ 7 =
        .ok (fuzzySearch.expression (t.bound Dialect.shorthand.style 7)
          [.text "g$7", .int 1, .int 3]) ∧
      substitute (fun k => if k = 7 then "'g$7'" else if k = 8 then "1" else "3")
        (t.bound Dialect.shorthand.style 7) = t.inline Dialect.shorthand.style := by
  have known : ∀ n, .foreign n ∉ fuzzySearch.root.nodes := by
    intro n hn
    rw [Predicate.nodes_eq_preorder] at hn
    cases List.mem_singleton.mp hn
  obtain ⟨t, ht, within, -, replaced⟩ :=
    emissions_agree .shorthand fuzzySearch known isValidated_fuzzySearch
  obtain rfl : (fuzzySearch.template? .shorthand).getD [] = t := by rw [ht]; rfl
  obtain ⟨inline, bound⟩ := within 7 1 99 (by decide)
  refine ⟨_, by decide +kernel, by decide +kernel, inline (by decide +kernel),
    bound (by decide +kernel), replaced rfl hasPlainNames_fuzzySearch 7 _ ?_⟩
  intro i literal hi
  match i with
  | 0 => cases hi; decide +kernel
  | 1 => cases hi; decide +kernel
  | 2 => cases hi; decide +kernel
  | i + 3 => cases hi

end SearchTree

end SearchSql
