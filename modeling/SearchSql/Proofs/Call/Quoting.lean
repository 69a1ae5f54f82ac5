import SearchSql.Proofs.Call.Inline
import SearchSql.Proofs.Call.Strings
import SearchSql.Proofs.Literal.Encoding
import SearchSql.Proofs.Number.Text

/-!
# The strings in an inline call

The strings in an inline call are those of its tree (`inline_call_strings`): no text of the tree
ends its string early, as it is escaped, and no string is followed by another one at once, as a
character stands between them.
-/

namespace SearchSql

open Sql Script

theorem parted_behindCommas {α : Type} (f : α → List Char) (items : List α) {rest : List Char}
    (h : Parted rest) : Parted (behindCommas f items ++ rest) := by
  cases items with
  | nil => exact h
  | cons item items =>
    intro first
    cases first

theorem yields_behindCommas {α : Type} {f : α → List Char} {g : α → List String} {items : List α}
    (h : ∀ item ∈ items, Yields (f item) (g item)) :
    Yields (behindCommas f items) (items.flatMap g) := by
  induction items with
  | nil => exact yields_unquoted List.not_mem_nil
  | cons item items ih =>
    have parted := parted_behindCommas f items (Unquoted.parted List.not_mem_nil)
    rw [List.append_nil] at parted
    have both := (h item List.mem_cons_self).append
      (ih fun later hlater => h later (List.mem_cons_of_mem item hlater)) parted
    exact both.after_unquoted (s := [',', ' ']) (by decide)

/-- The items of a row between brackets or in a call. -/
theorem yields_row {α : Type} {f : α → List Char} {g : α → List String} (first : α)
    (rest : List α) {close : List Char} (h : ∀ item ∈ first :: rest, Yields (f item) (g item))
    (hclose : Unquoted close) :
    Yields (f first ++ (behindCommas f rest ++ close)) ((first :: rest).flatMap g) := by
  have later := yields_behindCommas fun item m => h item (List.mem_cons_of_mem first m)
  exact (h first List.mem_cons_self).append (later.before_unquoted hclose)
    (parted_behindCommas f rest hclose.parted)

/-! ## Spellings -/

/-- The spellings of a dialect have no apostrophes. -/
structure Style.IsUnquoted (style : Style) : Prop where
  namespaceText : Unquoted style.namespaceText.toList
  leafArrow : Unquoted style.leafArrow.toList
  arrayOpen : Unquoted style.arrayOpen.toList
  arrayClose : Unquoted style.arrayClose.toList
  textArrayClose : Unquoted style.textArrayClose.toList
  transposeCostOne : Unquoted style.transposeCostOne.toList

theorem Dialect.style_unquoted (dialect : Dialect) : dialect.style.IsUnquoted := by
  cases dialect <;> constructor <;> decide

theorem SearchOption.unquoted_name (o : SearchOption) : Unquoted o.name.toList := by
  cases o <;> decide

theorem Style.IsUnquoted.argumentName {style : Style} (hs : style.IsUnquoted)
    (argument : Argument) : Unquoted (style.argumentName argument).toList := by
  cases argument with
  | option o => exact o.unquoted_name
  | transposeCostOne => exact hs.transposeCostOne
  | distance => exact (by decide : Unquoted "distance".toList)
  | prefixMatch => exact (by decide : Unquoted "prefix".toList)
  | slop => exact (by decide : Unquoted "slop".toList)
  | factor => exact (by decide : Unquoted "factor".toList)

theorem RangeType.unquoted_name (type : RangeType) : Unquoted type.name.toList := by
  cases type <;> decide

theorem Kind.unquoted_name (kind : Kind) : Unquoted kind.name.toList := by
  cases kind <;> decide

theorem Style.IsUnquoted.yields_function {style : Style} (hs : style.IsUnquoted)
    {function : String} (h : Unquoted function.toList) {rest : List Char} {strings : List String}
    (hrest : Yields rest strings) :
    Yields ((style.namespaceText ++ function).toList ++ '(' :: rest) strings := by
  rw [List.append_cons, String.toList_append]
  exact hrest.after_unquoted ((hs.namespaceText.append h).append (by decide))

/-! ## Literals -/

/-- The strings that a literal is written with. -/
def Literal.strings : Literal → List String
  | .string s => [s]
  | .range s _ => [s]
  | .textArray ss => ss
  | _ => []

theorem Number.apostrophe_notMem : Text.apostrophe ∉ Number.numeralChars := by decide

theorem Style.IsUnquoted.yields_literal {style : Style} (hs : style.IsUnquoted)
    (literal : Literal) : Yields (style.literalText literal).toList literal.strings := by
  cases literal with
  | string s => exact yields_quote s
  | integer n =>
    rw [literalText, String.toList_ofList]
    exact yields_unquoted fun h =>
      Number.apostrophe_notMem (Number.mem_numeralChars_of_mem_intText h)
  | float x =>
    rw [literalText, String.toList_ofList]
    exact yields_unquoted fun h =>
      Number.apostrophe_notMem ((Number.marked_finiteText x).chars _ h)
  | boolean b =>
    apply yields_unquoted
    cases b with
    | false => exact (by decide : Unquoted "false".toList)
    | true => exact (by decide : Unquoted "true".toList)
  | range s type =>
    rw [literalText]
    split
    · rw [String.append_assoc, String.toList_append]
      refine (yields_quote s).before_unquoted ?_
      rw [String.toList_append]
      exact Unquoted.append (by decide) type.unquoted_name
    · exact yields_quote s
  | textArray ss =>
    cases ss with
    | nil =>
      rw [toList_textArray_nil]
      exact yields_unquoted (hs.arrayOpen.append hs.textArrayClose)
    | cons first rest =>
      rw [toList_textArray_cons]
      have row := yields_row first rest (fun s _ => yields_quote s) hs.textArrayClose
      rw [List.flatMap_singleton'] at row
      exact row.after_unquoted hs.arrayOpen

/-! ## Values -/

def Value.text? : Value → Option String
  | .text s => some s
  | _ => none

/-- The texts that a value is written with: itself, its items, or the literal of a range. -/
def Value.texts : Value → List String
  | .text s => [s]
  | .range r => [r.plain.text]
  | .list items => items.filterMap text?
  | .tuple items => items.filterMap text?
  | _ => []

theorem Value.filterMap_text (ss : List String) : (ss.map .text).filterMap text? = ss := by
  rw [List.filterMap_map]
  exact List.filterMap_some

theorem Value.strings_of_encode {v : Value} {literal : Literal} (h : v.encode = .ok literal) :
    literal.strings = v.texts := by
  cases encodes_of_encode h with
  | range r text _ => rw [Literal.strings, texts, text]
  | list items => rw [Literal.strings, texts, items, filterMap_text]
  | tuple items => rw [Literal.strings, texts, items, filterMap_text]
  | _ => rfl

theorem Style.IsUnquoted.yields_slot {style : Style} (hs : style.IsUnquoted) {v : Value}
    (h : v.IsLiteral) (argument : Option Argument) :
    Yields (inline style [.slot v argument]) v.texts := by
  obtain ⟨literal, hv⟩ := h
  rw [inline_slot hv, ← Value.strings_of_encode hv]
  exact hs.yields_literal literal

/-! ## Predicates -/

/-- The texts of a step that is a slot. -/
def Step.texts : Step → List String
  | .slot v _ => v.texts
  | _ => []

/-- A named argument of a leaf that is given by a literal. -/
inductive Style.IsLiteralArgument : String × Script → Prop where
  | mk {name : String} {v : Value} (argument : Option Argument) (hname : Unquoted name.toList)
      (hv : v.IsLiteral) : IsLiteralArgument (name, [.slot v argument])

namespace Style.IsUnquoted

variable {style : Style}

theorem yields_argument (hs : style.IsUnquoted) {arg : String × Script}
    (h : IsLiteralArgument arg) :
    Yields (style.argumentText arg) (arg.2.flatMap Step.texts) := by
  obtain ⟨argument, hname, hv⟩ := h
  have value := (hs.yields_slot hv argument).after_unquoted hs.leafArrow
  rw [List.flatMap_singleton]
  exact value.after_unquoted hname

theorem yields_leaf (hs : style.IsUnquoted) (function field : String)
    {args : List (String × Script)} (hfunction : Unquoted function.toList)
    (h : ∀ arg ∈ args, IsLiteralArgument arg) :
    Yields (inline style (style.leaf function field args))
      (field :: args.flatMap fun arg => arg.2.flatMap Step.texts) := by
  have arguments := yields_behindCommas fun arg m => hs.yields_argument (h arg m)
  have closed := arguments.before_unquoted (t := [')']) (by decide)
  have all := (yields_quote field).append closed
    (parted_behindCommas _ _ (Unquoted.parted (by decide)))
  have fieldName : Unquoted ("field" ++ style.leafArrow).toList := by
    rw [String.toList_append]
    exact Unquoted.append (by decide) hs.leafArrow
  rw [inline_leaf]
  exact hs.yields_function hfunction (all.after_unquoted fieldName)

theorem literal_optional (hs : style.IsUnquoted) (argument : Argument) {α : Type} {f : α → Value}
    (given : Option α) (h : ∀ a, (f a).IsLiteral) :
    ∀ arg ∈ style.optional argument (given.map f), IsLiteralArgument arg := by
  cases given with
  | none => exact List.forall_mem_nil _
  | some a => exact List.forall_mem_singleton.mpr (.mk _ (hs.argumentName argument) (h a))

theorem literal_fuzzyArguments (hs : style.IsUnquoted) (options : FuzzyOptions) :
    ∀ arg ∈ style.fuzzyArguments options, IsLiteralArgument arg := by
  refine List.forall_mem_append.mpr ⟨List.forall_mem_append.mpr ⟨?_, ?_⟩, ?_⟩
  · exact hs.literal_optional .distance options.distance fun d => Value.isLiteral_int d.val
  · exact hs.literal_optional .transposeCostOne options.transposeCostOne Value.isLiteral_bool
  · exact hs.literal_optional .prefixMatch options.prefixMatch Value.isLiteral_bool

/-- A leaf with a value, whose other arguments have no texts. -/
theorem yields_comparison (hs : style.IsUnquoted) (function field name : String) {v : Value}
    {more : List (String × Script)} (hfunction : Unquoted function.toList)
    (hname : Unquoted name.toList) (hv : v.IsLiteral) (hmore : ∀ arg ∈ more, IsLiteralArgument arg)
    (silent : more.flatMap (fun arg => arg.2.flatMap Step.texts) = []) :
    Yields (inline style (style.leaf function field ((name, [.slot v none]) :: more)))
      (field :: v.texts) := by
  have call := hs.yields_leaf function field hfunction
    (List.forall_mem_cons.mpr ⟨.mk none hname hv, hmore⟩)
  rw [List.flatMap_cons, silent, List.append_nil, List.flatMap_singleton] at call
  exact call

end Style.IsUnquoted

theorem Style.texts_optional (style : Style) (argument : Argument) {α : Type} {f : α → Value}
    (given : Option α) (h : ∀ a, (f a).texts = []) :
    (style.optional argument (given.map f)).flatMap (fun arg => arg.2.flatMap Step.texts) = [] := by
  cases given with
  | none => rfl
  | some a => simp [optional, Step.texts, h]

theorem Style.texts_fuzzyArguments (style : Style) (options : FuzzyOptions) :
    (style.fuzzyArguments options).flatMap (fun arg => arg.2.flatMap Step.texts) = [] := by
  rw [fuzzyArguments, List.flatMap_append, List.flatMap_append,
    style.texts_optional _ _ fun _ => rfl,
    style.texts_optional _ _ fun _ => rfl, style.texts_optional _ _ fun _ => rfl]
  rfl

namespace Predicate

/-- The texts of a node apart from its children: its field, and what it compares with. -/
def ownTexts (p : Predicate Value) : List String :=
  p.field?.toList ++ p.literal?.elim [] Value.texts

/-- The texts of a predicate in tree order, the field of a leaf before its value. -/
def texts (p : Predicate Value) : List String := p.nodes.flatMap ownTexts

theorem texts_eq (p : Predicate Value) : p.texts = p.ownTexts ++ p.children.flatMap texts := by
  rw [texts, nodes_eq_cons, List.flatMap_cons, List.flatMap_assoc]
  rfl

theorem texts_leaf {p : Predicate Value} (h : p.children = []) : p.texts = p.ownTexts := by
  rw [texts_eq, h, List.flatMap_nil, List.append_nil]

theorem texts_boolean (kind : Kind) (first : Predicate Value) (rest : List (Predicate Value)) :
    (Predicate.boolean kind first rest).texts = (first :: rest).flatMap texts := by
  rw [texts_eq]
  rfl

theorem texts_boost (query : Predicate Value) (factor : Factor) :
    (Predicate.boost query factor).texts = query.texts := by
  rw [texts_eq]
  exact List.append_nil _

end Predicate

namespace Style.IsUnquoted

variable {style : Style}

/-- A leaf is written with its field and the value it compares with. -/
theorem yields_of_leaf (hs : style.IsUnquoted) {p : Predicate Value} (depth : ℕ)
    (h : p.children = []) (literals : ∀ v ∈ p.literals, v.IsLiteral) :
    Yields (inline style (style.script depth p)) p.texts := by
  have compared : ∀ v ∈ p.literal?, v.IsLiteral := fun v hv =>
    literals v (Predicate.mem_literals_of_literal hv)
  rw [Predicate.texts_leaf h]
  cases p with
  | parse query =>
    have value := hs.yields_slot (compared (.text query) rfl) none
    have closed := value.before_unquoted (t := [')']) (by decide)
    rw [script, inline_enter, inline_call]
    exact hs.yields_function (by decide) closed
  | term field v =>
    rw [script, inline_enter]
    exact hs.yields_comparison "term" field "value" (by decide) (by decide) (compared v rfl)
      (List.forall_mem_nil _) rfl
  | fuzzy field text options =>
    rw [script, inline_enter]
    exact hs.yields_comparison "fuzzy_term" field "value" (by decide) (by decide)
      (compared (.text text) rfl)
      (hs.literal_fuzzyArguments options) (style.texts_fuzzyArguments options)
  | phrase field phrases slop =>
    have items : (Value.list phrases).IsLiteral := compared (.tuple phrases) rfl
    rw [script, inline_enter]
    exact hs.yields_comparison "phrase" field "phrases" (by decide) (by decide) items
      (hs.literal_optional .slop _ Value.isLiteral_int) (style.texts_optional .slop _ fun _ => rfl)
  | range field range =>
    rw [script, inline_enter]
    exact hs.yields_comparison "range" field "range" (by decide) (by decide)
      (compared (.range range) rfl)
      (List.forall_mem_nil _) rfl
  | present field =>
    rw [script, inline_enter]
    exact hs.yields_leaf "exists" field (by decide) (List.forall_mem_nil _)
  | boolean kind first rest => cases h
  | boost query factor => cases h
  | foreign typeName =>
    exact yields_unquoted List.not_mem_nil

theorem yields_script (hs : style.IsUnquoted) (p : Predicate Value) (depth : ℕ)
    (literals : ∀ v ∈ p.literals, v.IsLiteral) :
    Yields (inline style (style.script depth p)) p.texts := by
  induction p using Predicate.tree_induction generalizing depth with
  | leaf p h => exact hs.yields_of_leaf depth h literals
  | boolean kind first rest ih =>
    have children : ∀ q ∈ first :: rest,
        Yields (inline style (style.script (depth + 1) q)) q.texts := by
      intro q hq
      refine ih q hq (depth + 1) fun v hv => literals v ?_
      exact Predicate.literals_child hq hv
    have row := yields_row first rest children (hs.arrayClose.append (t := [')']) (by decide))
    have arrow : Unquoted " => ".toList := by decide
    have inner := ((row.after_unquoted hs.arrayOpen).after_unquoted arrow).after_unquoted
      kind.unquoted_name
    rw [inline_boolean, Predicate.texts_boolean]
    exact hs.yields_function (by decide) inner
  | boost query factor ih =>
    have below := ih (depth + 1) fun v hv =>
      literals v (Predicate.literals_child List.mem_cons_self hv)
    have closed := below.before_unquoted (t := [')']) (by decide)
    have query := closed.after_unquoted (by decide : Unquoted ", query => ".toList)
    have number := (hs.yields_literal (.float factor.value)).append query nofun
    have both := number.after_unquoted (by decide : Unquoted "factor => ".toList)
    rw [inline_boost, Predicate.texts_boost]
    exact hs.yields_function (by decide) both

end Style.IsUnquoted

theorem SearchOption.texts_of_accepts {o : SearchOption} {v : Value}
    (h : o.accepts v = true) : v.texts = [] := by
  unfold accepts at h
  split at h
  · rfl
  · rfl
  · rfl
  · cases h

namespace SearchTree

variable {tree : SearchTree}

theorem IsValidated.yields_options (validated : tree.IsValidated) {style : Style}
    (hs : style.IsUnquoted) : Yields (behindCommas style.optionText tree.optionRows) [] := by
  have each : ∀ row ∈ tree.optionRows, Yields (style.optionText row) [] := by
    intro row hrow
    obtain ⟨o, -, ho⟩ := List.mem_filterMap.mp hrow
    obtain ⟨v, hv, rfl⟩ := Option.map_eq_some_iff.mp ho
    have accepted := validated.options o v hv
    have value := hs.yields_slot (SearchOption.isLiteral_of_accepts accepted) (some (.option o))
    rw [SearchOption.texts_of_accepts accepted] at value
    exact (value.after_unquoted (by decide : Unquoted " => ".toList)).after_unquoted
      o.unquoted_name
  have all := yields_behindCommas each
  rwa [List.flatMap_eq_nil_iff.mpr fun _ _ => rfl] at all

theorem IsValidated.yields_call (validated : tree.IsValidated) {style : Style}
    (hs : style.IsUnquoted) (index : Unquoted tree.binding.index.name.toList) :
    Yields (inline style (style.searchCall tree)) tree.root.texts := by
  have options := (validated.yields_options hs).before_unquoted (t := [')']) (by decide)
  have query := hs.yields_script tree.root 1 validated.literals
  have both := query.append options (parted_behindCommas _ _ (Unquoted.parted (by decide)))
  have name : Unquoted (tree.binding.index.name ++ ".search(query => ").toList := by
    rw [String.toList_append]
    exact index.append (by decide)
  rw [Style.inline_searchCall]
  rw [List.append_nil] at both
  exact both.after_unquoted name

/-- The strings in the inline call of a validated tree of known nodes are the texts of the tree. -/
theorem inline_call_strings (dialect : Dialect) (tree : SearchTree)
    (known : ∀ n, .foreign n ∉ tree.root.nodes) (validated : tree.IsValidated)
    (index : Unquoted tree.binding.index.name.toList) :
    ∃ sql : String,
      (∀ first maxDepth maxLength : Int, tree.root.depth ≤ maxDepth → sql.length ≤ maxLength →
        tree.emit ⟨dialect, false, maxDepth, maxLength⟩ first = .ok (tree.expression sql [])) ∧
      (∀ (first maxDepth maxLength : Int) e,
        tree.emit ⟨dialect, false, maxDepth, maxLength⟩ first = .ok e →
          e = tree.expression sql []) ∧
      strings? sql = some tree.root.texts := by
  obtain ⟨t, ht⟩ := validated.exists_template known dialect
  refine ⟨t.inline dialect.style, ?_, ?_, ?_⟩
  · intro first maxDepth maxLength hd hl
    exact @emit_within ⟨dialect, false, maxDepth, maxLength⟩ first tree t ht hd hl
  · intro first maxDepth maxLength e he
    obtain ⟨t', ht', rfl⟩ := exists_template_of_emit he
    cases ht.symm.trans ht'
    rfl
  · have call := validated.yields_call dialect.style_unquoted index []
    rw [strings?, toList_inline ht, call]
    rfl

/-- A search whose texts look like the ends of strings. -/
def quotedSearch : SearchTree where
  binding := ⟨"d", "d", ⟨"d", "i", ["a'"], none⟩⟩
  root := .boolean .must (.term "a'" (.text "'")) [.phrase "a'" [.text "", .text "'' OR '"] none]
  options := [(.limitRows, .int 3)]

theorem strings_of_quotedSearch :
    ∃ limit e, quotedSearch.emit ⟨.paradedb, false, 2, limit⟩ 1 = .ok e ∧
      e.sql = "i.search(query => paradedb.boolean(must => ARRAY[" ++
        "paradedb.term(field => 'a''', value => ''''), " ++
        "paradedb.phrase(field => 'a''', phrases => ARRAY['', ''''' OR ''']::text[])" ++
        "]), limit_rows => 3)" ∧
      strings? e.sql = some ["a'", "'", "a'", "", "'' OR '"] := by
  have known : ∀ n, .foreign n ∉ quotedSearch.root.nodes := by
    intro n hn
    rw [Predicate.nodes_eq_preorder] at hn
    simp [quotedSearch, Predicate.preorder, Predicate.preorderAll] at hn
  have validated : quotedSearch.IsValidated := by
    constructor
    · intro v hv
      rw [Predicate.literals, Predicate.nodes_eq_preorder] at hv
      rcases List.mem_cons.mp hv with rfl | hv
      · exact ⟨.string "'", rfl⟩
      · cases List.mem_singleton.mp hv
        exact ⟨.textArray ["", "'' OR '"], rfl⟩
    · intro o v ho
      cases o with
      | limitRows => cases ho; rfl
      | offsetRows => cases ho
      | stableSort => cases ho
  have texts : quotedSearch.root.texts = ["a'", "'", "a'", "", "'' OR '"] := by
    rw [Predicate.texts, Predicate.nodes_eq_preorder]
    rfl
  obtain ⟨sql, within, -, strings⟩ :=
    inline_call_strings .paradedb quotedSearch known validated (by decide)
  rw [texts] at strings
  have emitted := within 1 2 sql.length (by decide) le_rfl
  obtain ⟨t, ht, filled⟩ := exists_template_of_emit emitted
  obtain rfl : (quotedSearch.template? .paradedb).getD [] = t := by rw [ht]; rfl
  refine ⟨sql.length, _, emitted, ?_, strings⟩
  rw [filled]
  change ((quotedSearch.template? .paradedb).getD []).inline Dialect.paradedb.style = _
  decide +kernel

end SearchTree

end SearchSql
