import SearchSql.Proofs.Schema.Registration
import SearchSql.Proofs.Statement.Order
import SearchSql.Proofs.Statement.Relations

/-!
# Relations and their calls

Relations, bindings, searches, trees and calls are found by alias. They stay aligned through every
run, whether the statement is open or closed (`bound_run`). So in the text there is one item for
each relation, in order, and each call stands in the place of its own relation
(`each_relation_is_written_once`).
-/

namespace SearchSql

/-- The binding of a relation under its alias to the index that is registered for it. -/
structure Registry.Binds (registry : Registry) (ref : RelationRef) (binding : Binding) : Prop where
  aliasName : binding.aliasName = ref.aliasName
  relation : binding.relation = ref.relation
  index : registry.get? ref.relation = some binding.index

namespace Statement

variable {s s' : Statement}

/-! ## Bindings -/

/-- The aliases that are bound are those of the searches, and none is bound twice. All searches and
trees are bound as their aliases say. -/
structure Bound (s : Statement) : Prop where
  bindings : s.BindsSearches
  unique : s.searched.Nodup
  searches : ∀ search ∈ s.searches, s.binding? search.binding.aliasName = some search.binding
  trees : ∀ trees, s.trees = some trees → ∀ tree ∈ trees,
    s.binding? tree.binding.aliasName = some tree.binding

theorem binds_of_binding? {aliasName : String} {binding : Binding}
    (h : s.binding? aliasName = some binding) :
    ∃ ref ∈ s.refs, ref.aliasName = aliasName ∧ s.registry.Binds ref binding := by
  obtain ⟨ref, href, hbinding⟩ := Option.bind_eq_some_iff.mp h
  have named : ref.aliasName = aliasName := by simpa using List.find?_some href
  refine ⟨ref, List.mem_of_find?_eq_some href, named, ?_⟩
  unfold Binding.ofRegistry at hbinding
  cases hindex : s.registry.get? ref.relation with
  | none =>
    rw [hindex] at hbinding
    cases hbinding
  | some index =>
    rw [hindex] at hbinding
    cases hbinding
    exact ⟨named.symm, rfl, hindex⟩

theorem Aligned.isBound (h : s.Aligned) : s.Bound := by
  refine ⟨h.bindings, h.nodup, h.bound, ?_⟩
  intro trees closed
  rw [h.trees] at closed
  cases closed

/-- Closing the searches keeps their bindings, and each tree has the binding of its search. -/
theorem Aligned.isBound_finalize (h : s.Aligned) : s.finalize.1.Bound := by
  rcases h.finalize_cases with ⟨-, hf⟩ | ⟨-, e, hf⟩
  · rw [hf]
    refine ⟨?_, ?_, ?_, ?_⟩
    · have kept : (s.searches.map (·.close s.strategy)).map (·.binding) =
          s.searches.map (·.binding) := List.map_map
      exact h.bindings.trans kept.symm
    · have kept : (s.searches.map (·.close s.strategy)).map (·.binding.aliasName) = s.searched :=
        List.map_map
      rw [searched, kept]
      exact h.nodup
    · intro search hs
      obtain ⟨found, hfound, rfl⟩ := List.mem_map.mp hs
      exact h.bound found hfound
    · rintro trees ⟨⟩ tree ht
      obtain ⟨search, hs, htree⟩ := List.mem_filterMap.mp ht
      rw [Search.binding_of_tree htree]
      exact h.bound search hs
  · rw [hf]
    exact h.isBound

theorem Bound.of_closed (h : s.Bound) {trees : List SearchTree} (closed : s.trees = some trees)
    (op : Operation) : (s.apply op).1.Bound := by
  obtain ⟨stays, kept⟩ := apply_closed closed op
  constructor
  · rw [BindsSearches, bindings_closed closed, kept]
    exact h.bindings
  · rw [searched, kept]
    exact h.unique
  · rw [kept]
    intro search hs
    exact binding?_apply op (h.searches search hs)
  · rw [stays, ← closed]
    intro trees' closed' tree ht
    exact binding?_apply op (h.trees trees' closed' tree ht)

theorem Aligned.isBound_apply (h : s.Aligned) (op : Operation) : (s.apply op).1.Bound := by
  cases stays : (s.apply op).1.trees with
  | none => exact (h.changes_apply stays).aligned.isBound
  | some trees =>
    cases named : op.alias? with
    | some aliasName => exact (h.changes_searching named).aligned.isBound
    | none =>
      rcases apply_foreign named s with ht | ⟨kept, -⟩
      · rw [ht]
        exact h.isBound_finalize
      · rw [kept, h.trees] at stays
        cases stays

theorem Ordered.isBound_run {history : List Reach} (h : Ordered history s) (bound : s.Bound)
    (ops : List Operation) : (s.run ops).1.Bound := by
  induction ops generalizing s history with
  | nil => exact bound
  | cons op rest ih =>
    refine ih (h.preserve_apply op) ?_
    cases closed : s.trees with
    | none => exact (h.begun closed).1.isBound_apply op
    | some trees => exact bound.of_closed closed op

theorem bound_run (registry : Registry) (strategy : FoldStrategy) (ops : List Operation) :
    ((new registry strategy).run ops).1.Bound :=
  (Ordered.initial registry strategy).isBound_run (aligned_new registry strategy).isBound ops

/-- The trees that a statement is finalized to are bound as its aliases say. -/
theorem Ordered.binding?_of_finalize {history : List Reach} {trees : List SearchTree}
    (h : Ordered history s) (bound : s.Bound) (hf : s.finalize = (s', .ok trees)) :
    ∀ tree ∈ trees, s.binding? tree.binding.aliasName = some tree.binding := by
  have later := h.isBound_run bound [.finalize]
  have applied : (s.run [.finalize]).1 = s' := congrArg Prod.fst hf
  have frames := frame_finalize s
  rw [applied] at later
  rw [hf] at frames
  intro tree ht
  have same := congrArg (fun frame => binding? frame tree.binding.aliasName) frames
  exact same.symm.trans (later.trees trees (trees_of_finalize hf) tree ht)

/-! ## The text -/

/-- What stands before the relations. -/
def selectText (s : Statement) : String :=
  "SELECT " ++ if s.columns.isEmpty then "*" else String.intercalate ", " s.columns

/-- What stands behind the relations. -/
def tailTexts (s : Statement) : List String :=
  (match s.conditions with
    | [] => []
    | [c] => ["WHERE " ++ c]
    | cs => ["WHERE " ++ String.intercalate " AND " (cs.map fun c => "(" ++ c ++ ")")]) ++
  if s.orderings.isEmpty then [] else ["ORDER BY " ++ String.intercalate ", " s.orderings]

/-- A relation with its keywords, given the text that stands for it in the list of tables. -/
def clauseText (ref : RelationRef) (table : String) : String :=
  match ref.join with
  | none => "FROM " ++ table
  | some join =>
    if join.kind = "CROSS" then "CROSS JOIN " ++ table
    else join.kind ++ " JOIN " ++ table ++ " ON " ++ join.condition.getD ""

/-- A relation in the list of tables: its call under its alias, or else its plain name. -/
def tableText (ref : RelationRef) : Option Expression → String
  | some e => e.sql ++ " AS " ++ ref.aliasName
  | none => plainItem ref

/-- The call of a relation. -/
def call? (es : List Expression) (ref : RelationRef) : Option Expression :=
  es.find? (·.aliasName = ref.aliasName)

theorem refText_eq (es : List Expression) (ref : RelationRef) :
    refText es ref = clauseText ref (tableText ref (call? es ref)) := by
  have item : itemText es ref = tableText ref (call? es ref) := by
    rw [itemText, call?]
    cases found : es.find? (·.aliasName = ref.aliasName) with
    | none => rfl
    | some e =>
      have named : e.aliasName = ref.aliasName := by simpa using List.find?_some found
      simp only [tableText, Expression.fromItem, named]
  rw [refText, item]
  rfl

theorem render_eq_clauses (s : Statement) (es : List Expression) :
    s.render es = String.intercalate " " (s.selectText ::
      s.refs.map (fun ref => clauseText ref (tableText ref (call? es ref))) ++ s.tailTexts) := by
  have texts : s.refs.map (fun ref => clauseText ref (tableText ref (call? es ref))) =
      s.refs.map (refText es) := List.map_congr_left fun ref _ => (refText_eq es ref).symm
  rw [texts, tailTexts, ← List.append_assoc]
  rfl

/-- What a statement is built to: the calls of the trees that it is finalized to, each in the clause
of its relation. -/
theorem build_eq_clauses {settings : Settings} {sql : String} {parameters : List Value}
    (h : s.build settings = (s', .ok (sql, parameters))) :
    ∃ trees es, s.finalize = (s', .ok trees) ∧ emitAll settings 1 trees = .ok es ∧
      sql = String.intercalate " " (s.selectText ::
        s.refs.map (fun ref => clauseText ref (tableText ref (call? es ref))) ++ s.tailTexts) := by
  obtain ⟨trees, es, hf, hes, rfl, -⟩ := build_eq_ok h
  have frames : s'.frame = s.frame := by
    have kept := frame_finalize s
    rwa [hf] at kept
  refine ⟨trees, es, hf, hes, ?_⟩
  rw [render_eq frames fun _ => rfl, render_eq_clauses]

/-- Looking up all keys gives all of what is kept under them, each once. -/
theorem perm_filterMap_find? {α : Type} (name : α → String) {names : List String} {xs : List α}
    (unique : names.Nodup) (apart : (xs.map name).Nodup) (known : ∀ x ∈ xs, name x ∈ names) :
    (names.filterMap fun n => xs.find? (name · = n)).Perm xs := by
  have distinct : (names.filterMap fun n => xs.find? (name · = n)).Nodup := by
    refine unique.filterMap fun n n' x found found' => ?_
    have named : name x = n := by simpa using List.find?_some found
    have named' : name x = n' := by simpa using List.find?_some found'
    exact named.symm.trans named'
  refine (List.perm_ext_iff_of_nodup distinct apart.of_map).mpr fun x => ?_
  rw [List.mem_filterMap]
  constructor
  · rintro ⟨n, -, found⟩
    exact List.mem_of_find?_eq_some found
  · intro hx
    exact ⟨name x, known x hx, find?_of_mem name apart hx⟩

end Statement

/-- A call begins with the index of its binding. -/
theorem SearchTree.exists_sql_of_emit {settings : Settings} {first : Int} {tree : SearchTree}
    {e : Expression} (h : tree.emit settings first = .ok e) :
    ∃ rest, e.sql = tree.binding.index.name ++ ".search(" ++ rest := by
  obtain ⟨t, ht, rfl⟩ := exists_template_of_emit h
  obtain ⟨rest, -, rfl⟩ := Option.map_eq_some_iff.mp ht
  refine ⟨Template.written settings first rest, ?_⟩
  have opening : tree.binding.index.name ++ ".search" ++ "(" =
      tree.binding.index.name ++ ".search(" := by
    rw [String.append_assoc]
    rfl
  rw [← opening]
  simp only [filled, expression, Template.written, Template.bound, Template.inline]
  split <;> rfl

namespace Statement

variable {s : Statement}

/-- What is written for a relation: its call, if its alias has got a predicate, and nothing but its
name otherwise. The call is that of a tree which is bound to this relation and to its index. -/
inductive Written (registry : Registry) (settings : Settings) (predicates : List String)
    (trees : List SearchTree) : RelationRef → Option Expression → Prop where
  | plain {ref : RelationRef} (unsearched : ref.aliasName ∉ predicates) :
    Written registry settings predicates trees ref none
  | call {ref : RelationRef} {tree : SearchTree} {e : Expression} {first : Int}
    (searched : ref.aliasName ∈ predicates) (made : tree ∈ trees)
    (binds : registry.Binds ref tree.binding) (emitted : tree.emit settings first = .ok e)
    (opening : ∃ rest, e.sql = tree.binding.index.name ++ ".search(" ++ rest) :
    Written registry settings predicates trees ref (some e)

theorem mem_order_iff {history : List Reach} {name : String} :
    name ∈ order history ↔ name ∈ firstPredicates history := by
  rw [order, List.mem_filter, decide_eq_true_iff]
  exact and_iff_right_of_imp mem_firstReached_of_predicate

theorem registry_run (registry : Registry) (strategy : FoldStrategy) (ops : List Operation) :
    ((new registry strategy).run ops).1.registry = registry :=
  (invariant_run registry strategy ops).base

theorem aliases_of_emitAll {settings : Settings} {first : Int} {trees : List SearchTree}
    {es : List Expression} (h : emitAll settings first trees = .ok es) :
    trees.map (·.binding.aliasName) = es.map (·.aliasName) := by
  refine map_eq_of_forall₂ (forall₂_of_emitAll h) ?_
  rintro tree e ⟨k, emitted⟩
  exact (SearchTree.aliasName_of_emit emitted).symm

/-- Where each tree is bound as its alias says and there are trees for the aliases with predicates,
each relation is written as it has to be. -/
theorem written_call? {settings : Settings} {first : Int} {predicates : List String}
    {trees : List SearchTree} {es : List Expression} (joined : s.WellJoined)
    (bound : ∀ tree ∈ trees, s.binding? tree.binding.aliasName = some tree.binding)
    (served : ∀ name, name ∈ trees.map (·.binding.aliasName) ↔ name ∈ predicates)
    (hes : emitAll settings first trees = .ok es) {ref : RelationRef} (href : ref ∈ s.refs) :
    Written s.registry settings predicates trees ref (call? es ref) := by
  have rel := rel_find?_of_emitAll hes ref.aliasName
  rw [call?]
  generalize es.find? (·.aliasName = ref.aliasName) = call at rel ⊢
  cases found : trees.find? (·.binding.aliasName = ref.aliasName) with
  | none =>
    rw [found] at rel
    cases rel
    refine .plain fun searched => ?_
    obtain ⟨tree, ht, same⟩ := List.mem_map.mp ((served _).mpr searched)
    exact List.find?_eq_none.mp found tree ht (by simpa using same)
  | some tree =>
    rw [found] at rel
    cases rel with
    | some emitted =>
      obtain ⟨k, emitted⟩ := emitted
      have ht : tree ∈ trees := List.mem_of_find?_eq_some found
      have named : tree.binding.aliasName = ref.aliasName := by simpa using List.find?_some found
      obtain ⟨other, hother, same, binds⟩ := binds_of_binding? (bound tree ht)
      obtain rfl := joined.eq_of_aliasName hother href (same.trans named)
      have searched := (served _).mp (List.mem_map_of_mem (f := (·.binding.aliasName)) ht)
      rw [named] at searched
      exact .call searched ht binds emitted (SearchTree.exists_sql_of_emit emitted)

/-- The calls of the relations are all the calls, each once. -/
theorem perm_calls {settings : Settings} {first : Int} {trees : List SearchTree}
    {es : List Expression} (unique : s.aliases.Nodup)
    (apart : (trees.map (·.binding.aliasName)).Nodup)
    (bound : ∀ tree ∈ trees, s.binding? tree.binding.aliasName = some tree.binding)
    (hes : emitAll settings first trees = .ok es) :
    (s.refs.map (call? es)).reduceOption.Perm es := by
  rw [aliases_of_emitAll hes] at apart
  have known : ∀ e ∈ es, e.aliasName ∈ s.aliases := by
    intro e he
    have named : e.aliasName ∈ trees.map (·.binding.aliasName) := by
      rw [aliases_of_emitAll hes]
      exact List.mem_map_of_mem he
    obtain ⟨tree, ht, same⟩ := List.mem_map.mp named
    obtain ⟨ref, href, known, -⟩ := binds_of_binding? (bound tree ht)
    exact List.mem_map.mpr ⟨ref, href, known.trans same⟩
  have listed : (s.refs.map (call? es)).reduceOption =
      s.aliases.filterMap fun name => es.find? (·.aliasName = name) := by
    change (s.refs.map (call? es)).filterMap id = _
    rw [List.filterMap_map, aliases, List.filterMap_map]
    rfl
  rw [listed]
  exact perm_filterMap_find? Expression.aliasName unique apart known

/-- Take any run. The relations of the statement are those that were successfully set and joined, in
this order and under different aliases. There is one search for an alias at most, and it is bound to
the relation of its alias and the index that is registered for it. Whenever the statement is built,
its text has one item for each relation, in order: first the one after FROM, then those that are
joined. A relation whose alias has got a predicate is written as a call on its own index, under its
own alias, and any other one by its name; and the calls written are all the calls there are, each
once. -/
theorem each_relation_is_written_once (registry : Registry) (strategy : FoldStrategy)
    {ops : List Operation} {s : Statement} {answers : List (Except StatementError Answer)}
    (hrun : (new registry strategy).run ops = (s, answers)) :
    s.refs = joined ops answers ∧ s.aliases.Nodup ∧ s.searched.Nodup ∧
    (∀ search ∈ s.searches, ∃ ref ∈ s.refs, registry.Binds ref search.binding ∧
      (registry.Constructed → ∀ index ∈ registry.indexes, index.relation = ref.relation →
        index = search.binding.index)) ∧
    ∀ settings s' sql parameters, s.build settings = (s', .ok (sql, parameters)) →
      (∃ first rest, s.refs = first :: rest ∧ first.join = none ∧
        ∀ ref ∈ rest, ∃ join, ref.join = some join ∧ join.kind ∈ joinKinds) ∧
      ∃ trees es calls, s.finalize = (s', .ok trees) ∧ emitAll settings 1 trees = .ok es ∧
        sql = String.intercalate " " (s.selectText ::
          List.zipWith (fun ref call => clauseText ref (tableText ref call)) s.refs calls ++
            s.tailTexts) ∧
        List.Forall₂ (Written registry settings (firstPredicates (reaches ops answers)) trees)
          s.refs calls ∧
        calls.reduceOption.Perm es := by
  obtain ⟨rfl, rfl⟩ := Prod.mk.inj hrun
  have refs := refs_run (new registry strategy) ops
  have joined := wellJoined_run registry strategy ops
  have bound := bound_run registry strategy ops
  have base := registry_run registry strategy ops
  have ordered := (Ordered.initial registry strategy).preserve_run ops
  rw [List.nil_append] at ordered
  generalize ((new registry strategy).run ops).1 = s at *
  refine ⟨refs, joined.unique, bound.unique, ?_, ?_⟩
  · intro search hsearch
    obtain ⟨ref, href, -, binds⟩ := binds_of_binding? (bound.searches search hsearch)
    rw [base] at binds
    refine ⟨ref, href, binds, ?_⟩
    intro constructed index registered same
    exact constructed.eq_of_get? binds.index registered same
  intro settings s' sql parameters hbuild
  obtain ⟨trees, es, hf, hes, rfl⟩ := build_eq_clauses hbuild
  have placed : trees.map (·.binding.aliasName) =
      order (reaches ops ((new registry strategy).run ops).2) := by
    have finalized := ordered.preserve_finalize
    rw [hf] at finalized
    exact finalized.closed trees (trees_of_finalize hf)
  have boundTrees := ordered.binding?_of_finalize bound hf
  refine ⟨?_, trees, es, s.refs.map (call? es), hf, hes, ?_, ?_, ?_⟩
  · apply joined.exists_first
    intro empty
    rw [build, empty] at hbuild
    cases hbuild
  · rw [List.zipWith_map_right, List.zipWith_self]
  · have served : ∀ name, name ∈ trees.map (·.binding.aliasName) ↔
        name ∈ firstPredicates (reaches ops ((new registry strategy).run ops).2) := by
      intro name
      rw [placed, mem_order_iff]
    refine List.forall₂_map_right_iff.mpr (List.forall₂_same.mpr fun ref href => ?_)
    have called := written_call? joined boundTrees served hes href
    rwa [base] at called
  · refine perm_calls joined.unique ?_ boundTrees hes
    rw [placed]
    exact (nodup_firstReached _).filter _

/-- Two of three relations are searched, the last one first, and one join is refused. -/
def threeRelations : List Operation :=
  [.selectFrom "a" none, .join "b" (some "x") none "cross",
    .join "b" (some "x") (some "true") "left", .join "a" (some "y") (some "y.f = x.g") "left",
    .add "y" (.predicate (.present "f")) (.text "and"),
    .add "x" (.predicate (.term "g" (.int 5))) (.text "and")]

theorem three_relations_are_written :
    ∃ s answers s' sql parameters trees es calls,
      (new twoRelations .leftToRight).run threeRelations = (s, answers) ∧
      s.build (.standard .shorthand true) = (s', .ok (sql, parameters)) ∧
      sql = "SELECT * FROM a CROSS JOIN j.search(query => term(field=>'g', value=>$1)) AS x " ++
        "LEFT JOIN i.search(query => exists(field=>'f')) AS y ON y.f = x.g" ∧
      answers.map (·.isOk) = [true, true, false, true, true, true] ∧
      s.refs = [⟨"a", "a", none⟩, ⟨"b", "x", some ⟨"CROSS", none⟩⟩,
        ⟨"a", "y", some ⟨"LEFT", some "y.f = x.g"⟩⟩] ∧
      List.Forall₂ (Written twoRelations (.standard .shorthand true) ["y", "x"] trees)
        s.refs calls ∧
      calls.reduceOption.Perm es := by
  have outcome : let run := (new twoRelations .leftToRight).run threeRelations
      (run.1.build (.standard .shorthand true)).2.toOption.map Prod.fst =
        some ("SELECT * FROM a CROSS JOIN j.search(query => term(field=>'g', value=>$1)) AS x " ++
          "LEFT JOIN i.search(query => exists(field=>'f')) AS y ON y.f = x.g") ∧
      run.2.map (·.isOk) = [true, true, false, true, true, true] ∧
      run.1.refs = [⟨"a", "a", none⟩, ⟨"b", "x", some ⟨"CROSS", none⟩⟩,
        ⟨"a", "y", some ⟨"LEFT", some "y.f = x.g"⟩⟩] ∧
      firstPredicates (reaches threeRelations run.2) = ["y", "x"] := by
    decide +kernel
  cases hrun : (new twoRelations .leftToRight).run threeRelations with
  | mk s answers =>
    rw [hrun] at outcome
    obtain ⟨built, answered, refs, predicates⟩ := outcome
    cases hbuild : s.build (.standard .shorthand true) with
    | mk s' result =>
      rw [hbuild] at built
      cases result with
      | error e => cases built
      | ok pair =>
        obtain ⟨sql, parameters⟩ := pair
        obtain ⟨-, -, -, -, text⟩ := each_relation_is_written_once twoRelations .leftToRight hrun
        obtain ⟨-, trees, es, calls, -, -, -, written, all⟩ := text _ s' sql parameters hbuild
        rw [predicates] at written
        exact ⟨s, answers, s', sql, parameters, trees, es, calls, rfl, hbuild,
          Option.some.inj built, answered, refs, written, all⟩

end Statement

end SearchSql
