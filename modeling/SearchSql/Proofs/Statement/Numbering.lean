import SearchSql.Proofs.Schema.Naming
import SearchSql.Proofs.Statement.Invariant

/-!
# Placeholders of a whole statement

The calls of a statement are emitted one after the other, each with its placeholders numbered on
from those before it. So they are numbered from one on without a gap, and each number leads to the
value of the literal in whose place it stands (`placeholders_are_numbered`).
-/

namespace SearchSql

namespace Statement

variable {settings : Settings} {first : Int} {trees : List SearchTree} {es : List Expression}

theorem exists_trees_of_expressions {s s' : Statement}
    (h : s.expressions settings = (s', .ok es)) :
    ∃ trees, s.finalize = (s', .ok trees) ∧ emitAll settings 1 trees = .ok es := by
  unfold expressions at h
  cases hf : s.finalize with
  | mk s'' result =>
    simp only [hf] at h
    cases result with
    | error e => cases h
    | ok trees =>
      obtain ⟨hs, hes⟩ := Prod.mk.inj h
      subst hs
      exact ⟨trees, rfl, Except.mapError_eq_ok.mp hes⟩

theorem build_eq_ok {s s' : Statement} {sql : String} {parameters : List Value}
    (h : s.build settings = (s', .ok (sql, parameters))) :
    ∃ trees es, s.finalize = (s', .ok trees) ∧ emitAll settings 1 trees = .ok es ∧
      sql = s'.render es ∧ parameters = es.flatMap (·.parameters) := by
  unfold build at h
  by_cases hrefs : s.refs.isEmpty = true
  · rw [if_pos hrefs] at h
    cases h
  rw [if_neg hrefs] at h
  cases he : s.expressions settings with
  | mk s'' result =>
    simp only [he] at h
    cases result with
    | error e => cases h
    | ok es =>
      cases h
      obtain ⟨trees, hf, hes⟩ := exists_trees_of_expressions he
      exact ⟨trees, es, hf, hes, rfl, rfl⟩

theorem emitAll_cons {tree : SearchTree} {rest : List SearchTree}
    (h : emitAll settings first (tree :: rest) = .ok es) :
    ∃ e es', tree.emit settings first = .ok e ∧
      emitAll settings (first + e.parameters.length) rest = .ok es' ∧ es = e :: es' := by
  obtain ⟨e, he, h⟩ := Except.bind_eq_ok.mp h
  obtain ⟨es', hes, h⟩ := Except.bind_eq_ok.mp h
  cases h
  exact ⟨e, es', he, hes, rfl⟩

/-- Each call is that of the tree at its place, and its numbers go on from those before it. -/
theorem emit_of_emitAll (h : emitAll settings first trees = .ok es) {before after : List Expression}
    {e : Expression} (hes : es = before ++ e :: after) :
    ∃ tree, trees[before.length]? = some tree ∧
      tree.emit settings (first + (before.flatMap (·.parameters)).length) = .ok e := by
  induction before generalizing first trees es with
  | nil =>
    cases trees with
    | nil =>
      cases h
      cases hes
    | cons tree rest =>
      obtain ⟨e', es', he, -, rfl⟩ := emitAll_cons h
      cases hes
      refine ⟨tree, rfl, ?_⟩
      rw [List.flatMap_nil, List.length_nil, Int.natCast_zero, Int.add_zero]
      exact he
  | cons d before ih =>
    cases trees with
    | nil =>
      cases h
      cases hes
    | cons tree rest =>
      obtain ⟨e', es', -, hrest, rfl⟩ := emitAll_cons h
      cases hes
      obtain ⟨tree', htree, he⟩ := ih hrest rfl
      refine ⟨tree', htree, ?_⟩
      rw [List.flatMap_cons, List.length_append, Int.natCast_add, ← Int.add_assoc]
      exact he

theorem placeholders_of_emitAll {dialect : Dialect} {maxDepth maxLength : Int}
    (names : ∀ tree ∈ trees, tree.HasPlainNames)
    (h : emitAll ⟨dialect, true, maxDepth, maxLength⟩ first trees = .ok es) :
    es.flatMap (fun e => placeholders e.sql) =
      block first (es.flatMap (·.parameters)).length := by
  induction trees generalizing first es with
  | nil =>
    cases h
    rfl
  | cons tree rest ih =>
    obtain ⟨e, es', he, hrest, rfl⟩ := emitAll_cons h
    obtain ⟨hnames, hlater⟩ := List.forall_mem_cons.mp names
    rw [List.flatMap_cons, List.flatMap_cons, List.length_append, block_add, ih hlater hrest,
      SearchTree.placeholders_of_emit hnames he]

/-- A parameter belongs to one of the calls. -/
theorem exists_expression {i : ℕ} {v : Value} (h : (es.flatMap (·.parameters))[i]? = some v) :
    ∃ before e after j, es = before ++ e :: after ∧ e.parameters[j]? = some v ∧
      i = (before.flatMap (·.parameters)).length + j := by
  induction es generalizing i with
  | nil => cases h
  | cons d es ih =>
    rw [List.flatMap_cons] at h
    by_cases here : i < d.parameters.length
    · rw [List.getElem?_append_left here] at h
      exact ⟨[], d, es, i, rfl, h, (Nat.zero_add i).symm⟩
    · rw [List.getElem?_append_right (by omega)] at h
      obtain ⟨before, e, after, j, rfl, hj, hi⟩ := ih h
      refine ⟨d :: before, e, after, j, rfl, hj, ?_⟩
      rw [List.flatMap_cons, List.length_append]
      omega

/-- The names in the trees of a statement are those of the registry. -/
theorem Invariant.hasPlainNames {registry : Registry} {added : List (Predicate Value)}
    {s s' : Statement} (h : s.Invariant registry added) (constructed : registry.Constructed)
    (hf : s.finalize = (s', .ok trees)) : ∀ tree ∈ trees, tree.HasPlainNames := by
  intro tree htree
  have sound := h.tree_of_finalize hf tree htree
  have plain := constructed.isPlain tree.binding.index sound.index
  exact ⟨plain.name, fun f hf => plain.fields f (sound.fields f hf)⟩

/-- For a statement over a registry that was built from checked names, and for any single tree
whose names are plain: the placeholders are numbered in the order of the text, and the parameter
of each is the value of the literal in whose place it stands. -/
theorem placeholders_are_numbered (dialect : Dialect) (maxDepth maxLength : Int) :
    (∀ (registry : Registry) (strategy : FoldStrategy) (ops : List Operation) (s : Statement)
        (sql : String) (parameters : List Value), registry.Constructed →
      ((new registry strategy).run ops).1.build ⟨dialect, true, maxDepth, maxLength⟩ =
        (s, .ok (sql, parameters)) →
      ∃ trees es, s.trees = some trees ∧
        emitAll ⟨dialect, true, maxDepth, maxLength⟩ 1 trees = .ok es ∧
        sql = s.render es ∧ parameters = es.flatMap (·.parameters) ∧
        es.flatMap (fun e => placeholders e.sql) = block 1 parameters.length ∧
        (∀ before e after, es = before ++ e :: after →
          placeholders e.sql =
            block (1 + (before.flatMap (·.parameters)).length) e.parameters.length) ∧
        (∀ (i : ℕ) v, parameters[i]? = some v →
          ∃ before e after tree, es = before ++ e :: after ∧ trees[before.length]? = some tree ∧
            tree.Binds dialect (1 + (before.flatMap (·.parameters)).length) e.sql (1 + i) v)) ∧
    (∀ (tree : SearchTree) (first : Int) (e : Expression), tree.HasPlainNames →
      tree.emit ⟨dialect, true, maxDepth, maxLength⟩ first = .ok e →
      placeholders e.sql = block first e.parameters.length ∧
      (∀ (i : ℕ) v, e.parameters[i]? = some v → tree.Binds dialect first e.sql (first + i) v) ∧
      ∀ first' maxDepth' maxLength' e',
        tree.emit ⟨dialect, true, maxDepth', maxLength'⟩ first' = .ok e' →
        e'.parameters = e.parameters) := by
  constructor
  · intro registry strategy ops s sql parameters constructed hbuild
    obtain ⟨trees, es, hfinal, hes, rfl, rfl⟩ := build_eq_ok hbuild
    have names := (invariant_run registry strategy ops).hasPlainNames constructed hfinal
    refine ⟨trees, es, trees_of_finalize hfinal, hes, rfl, rfl,
      placeholders_of_emitAll names hes, ?_, ?_⟩
    · intro before e after hsplit
      obtain ⟨tree, htree, he⟩ := emit_of_emitAll hes hsplit
      exact SearchTree.placeholders_of_emit (names tree (List.mem_of_getElem? htree)) he
    · intro i v hv
      obtain ⟨before, e, after, j, hsplit, hj, rfl⟩ := exists_expression hv
      obtain ⟨tree, htree, he⟩ := emit_of_emitAll hes hsplit
      refine ⟨before, e, after, tree, hsplit, htree, ?_⟩
      rw [Int.natCast_add, ← Int.add_assoc]
      exact SearchTree.binds_of_emit he hj
  · intro tree first e names he
    refine ⟨SearchTree.placeholders_of_emit names he, ?_, ?_⟩
    · intro i v hv
      exact SearchTree.binds_of_emit he hv
    · intro first' maxDepth' maxLength' e' he'
      exact SearchTree.parameters_of_emit he he'

def twoRelations : Registry := ⟨[⟨"a", "i", ["f"], none⟩, ⟨"b", "j", ["g"], none⟩]⟩

theorem constructed_twoRelations : twoRelations.Constructed := by
  have first : SearchIndex.build "a" (.list [.text "f"]) (some "i") none =
      .ok ⟨"a", "i", ["f"], none⟩ := by rfl
  have second : SearchIndex.build "b" (.list [.text "g"]) (some "j") none =
      .ok ⟨"b", "j", ["g"], none⟩ := by rfl
  exact .add (.add .empty first rfl) second rfl

/-- A statement over two relations before anything is searched. -/
def crossed : Statement :=
  ((new twoRelations .leftToRight).run [.selectFrom "a" none, .join "b" none none "CROSS"]).1

def limitRows : Operation := .setOption "b" (.text "limit_rows") (.int 7)

def addTerm : Operation := .add "b" (.predicate (.term "g" (.int 5))) (.text "and")

def addFuzzy : Operation :=
  .add "a" (.predicate (.fuzzy "f" "x" ⟨none, some true, none⟩)) (.text "and")

/-- The second relation is searched first, so it has the first placeholders. -/
def twoSearches : List Operation :=
  [.selectFrom "a" none, .join "b" none none "CROSS",
    .add "b" (.predicate (.term "g" (.int 5))) (.text "and"),
    .setOption "b" (.text "limit_rows") (.int 7),
    .add "a" (.predicate (.fuzzy "f" "x" ⟨none, some true, none⟩)) (.text "and")]

theorem two_searches_are_numbered :
    ∃ s sql parameters, ((new twoRelations .leftToRight).run twoSearches).1.build
        (.standard .shorthand true) = (s, .ok (sql, parameters)) ∧
      sql = "SELECT * FROM i.search(query => fuzzy_term(field=>'f', value=>$3, " ++
        "transpose_cost_one=>true)) AS a CROSS JOIN j.search(query => term(field=>'g', " ++
        "value=>$1), limit_rows => $2) AS b" ∧
      parameters.map Value.shown = ["5", "7", "'x'"] ∧
      ∃ trees es, s.trees = some trees ∧ emitAll (.standard .shorthand true) 1 trees = .ok es ∧
        es.flatMap (fun e => placeholders e.sql) = [1, 2, 3] := by
  have outcome : (((new twoRelations .leftToRight).run twoSearches).1.build
      (.standard .shorthand true)).2.toOption.map (fun b => (b.1, b.2.map Value.shown)) =
      some ("SELECT * FROM i.search(query => fuzzy_term(field=>'f', value=>$3, " ++
        "transpose_cost_one=>true)) AS a CROSS JOIN j.search(query => term(field=>'g', " ++
        "value=>$1), limit_rows => $2) AS b", ["5", "7", "'x'"]) := by
    decide +kernel
  cases h : ((new twoRelations .leftToRight).run twoSearches).1.build
      (.standard .shorthand true) with
  | mk s result =>
    rw [h] at outcome
    cases result with
    | error e => cases outcome
    | ok built =>
      obtain ⟨sql, parameters⟩ := built
      simp only [Except.toOption, Option.map_some, Option.some.injEq, Prod.mk.injEq] at outcome
      obtain ⟨hsql, hshown⟩ := outcome
      obtain ⟨trees, es, htrees, hes, -, -, numbered, -⟩ :=
        (placeholders_are_numbered .shorthand 100 50000).1 twoRelations .leftToRight twoSearches s
          sql parameters constructed_twoRelations h
      have three : parameters.length = 3 := by
        simpa using congrArg List.length hshown
      rw [three] at numbered
      exact ⟨s, sql, parameters, rfl, hsql, hshown, trees, es, htrees, hes, numbered⟩

end Statement

end SearchSql
