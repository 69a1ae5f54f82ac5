import SearchSql.Proofs.Schema.Identifier
import SearchSql.Proofs.Statement.Rendering

/-!
# Unquoted names

Relations, aliases and indexes are the names that a statement writes without quotes. A relation and
its alias are checked when the relation is added (`WellJoined.names`), and the name of an index when
it is built (`Constructed.isChecked`). So whatever the statement is built to, nothing but a
line feed behind a name can break out of its place (`unquoted_names_are_checked`).
-/

namespace SearchSql

namespace Statement

/-- The text of a relation in the list of tables, with the names that it holds without quotes. -/
inductive TableText : List String → String → Prop where
  | plain (relation : String) : TableText [relation] relation
  | renamed (relation aliasName : String) :
    TableText [relation, aliasName] (relation ++ " AS " ++ aliasName)
  | call (index arguments aliasName : String) :
    TableText [index, aliasName] (index ++ ".search(" ++ arguments ++ " AS " ++ aliasName)

variable {s : Statement}

/-- Each call of a statement begins with the name of a registered index and has the alias of a
relation. -/
theorem names_of_emitAll {settings : Settings} {first : Int} {trees : List SearchTree}
    {es : List Expression} (constructed : s.registry.Constructed) (joined : s.WellJoined)
    (bound : ∀ tree ∈ trees, s.binding? tree.binding.aliasName = some tree.binding)
    (hes : emitAll settings first trees = .ok es) {e : Expression} (he : e ∈ es) :
    ∃ index arguments, e.sql = index ++ ".search(" ++ arguments ∧
      Name.checkRelation index = .ok () ∧ Name.check e.aliasName = .ok () := by
  obtain ⟨before, after, split⟩ := List.append_of_mem he
  obtain ⟨tree, ht, emitted⟩ := emit_of_emitAll hes split
  obtain ⟨arguments, opening⟩ := SearchTree.exists_sql_of_emit emitted
  obtain ⟨ref, href, -, binds⟩ := binds_of_binding? (bound tree (List.mem_of_getElem? ht))
  refine ⟨_, arguments, opening, ?_, ?_⟩
  · exact (constructed.isChecked _ (Registry.get?_eq_some binds.index).1).name
  · rw [SearchTree.aliasName_of_emit emitted, binds.aliasName]
    exact (joined.names ref href).2

/-- Each relation is written with names that were checked. -/
theorem exists_tableText {es : List Expression} (joined : s.WellJoined)
    (called : ∀ e ∈ es, ∃ index arguments, e.sql = index ++ ".search(" ++ arguments ∧
      Name.checkRelation index = .ok () ∧ Name.check e.aliasName = .ok ())
    {ref : RelationRef} (href : ref ∈ s.refs) :
    ∃ names, TableText names (tableText ref (call? es ref)) ∧
      ∀ name ∈ names, Name.checkRelation name = .ok () := by
  obtain ⟨relation, aliasName⟩ := joined.names ref href
  have aliasName := Name.checkRelation_eq_ok_iff.mpr (Or.inl aliasName)
  cases found : call? es ref with
  | none =>
    rw [tableText, plainItem]
    by_cases same : ref.aliasName = ref.relation
    · rw [if_pos same]
      exact ⟨_, .plain _, List.forall_mem_singleton.mpr relation⟩
    · rw [if_neg same]
      refine ⟨_, .renamed _ _, List.forall_mem_cons.mpr ⟨relation, ?_⟩⟩
      exact List.forall_mem_singleton.mpr aliasName
  | some e =>
    obtain ⟨index, arguments, opening, checked, -⟩ := called e (List.mem_of_find?_eq_some found)
    rw [tableText, opening]
    refine ⟨_, .call index arguments _, List.forall_mem_cons.mpr ⟨checked, ?_⟩⟩
    exact List.forall_mem_singleton.mpr aliasName

/-- The check of a field name or an alias lets through the identifiers, and that of a relation or an
index also two of them with a dot in between; but in place of an identifier there may also be a word
with a line feed behind it. So the names that are meant are just those that pass without a line
feed. Take any run of a statement over a registry that was built up by registering. Whatever it is
built to, each name that is written without quotes for a relation has passed the check: it consists
of letters, digits and underscores and one dot at most, but for a line feed at the end or before the
dot. The same holds for the calls that it gives. -/
theorem unquoted_names_are_checked (registry : Registry) (strategy : FoldStrategy)
    (settings : Settings) {ops : List Operation} {s : Statement}
    {answers : List (Except StatementError Answer)} (constructed : registry.Constructed)
    (hrun : (new registry strategy).run ops = (s, answers)) :
    (∀ name, Name.check name = .ok () ↔ Name.IsIdentifier name ∨ Name.IsFedWord name) ∧
    (∀ name, Name.checkRelation name = .ok () ↔ Name.check name = .ok () ∨
      ∃ schema relation, name = schema ++ "." ++ relation ∧
        Name.check schema = .ok () ∧ Name.check relation = .ok ()) ∧
    (∀ name : String,
      (Name.IsIdentifier name ↔ Name.check name = .ok () ∧ '\n' ∉ name.toList) ∧
      (Name.IsRelationName name ↔ Name.checkRelation name = .ok () ∧ '\n' ∉ name.toList)) ∧
    (∀ s' sql parameters, s.build settings = (s', .ok (sql, parameters)) →
      ∃ tables, sql = String.intercalate " " (s.selectText ::
          List.zipWith clauseText s.refs tables ++ s.tailTexts) ∧
        tables.length = s.refs.length ∧
        ∀ table ∈ tables, ∃ names, TableText names table ∧
          ∀ name ∈ names, Name.checkRelation name = .ok () ∧ Name.IsUnquoted name) ∧
    ∀ s' es, s.expressions settings = (s', .ok es) → ∀ e ∈ es,
      ∃ index arguments, e.sql = index ++ ".search(" ++ arguments ∧
        Name.IsUnquoted index ∧ Name.IsUnquoted e.aliasName := by
  refine ⟨fun _ => Name.check_eq_ok_iff, fun _ => Name.checkRelation_eq_ok_iff,
    fun _ => ⟨Name.isIdentifier_iff_check, Name.isRelationName_iff_check⟩, ?_⟩
  obtain ⟨rfl, rfl⟩ := Prod.mk.inj hrun
  have joined := wellJoined_run registry strategy ops
  have bound := bound_run registry strategy ops
  have ordered := (Ordered.initial registry strategy).preserve_run ops
  rw [← registry_run registry strategy ops] at constructed
  generalize ((new registry strategy).run ops).1 = s at *
  constructor
  · intro s' sql parameters hbuild
    obtain ⟨trees, es, hf, hes, rfl⟩ := build_eq_clauses hbuild
    have called := fun e (he : e ∈ es) =>
      names_of_emitAll constructed joined (ordered.binding?_of_finalize bound hf) hes he
    refine ⟨s.refs.map fun ref => tableText ref (call? es ref), ?_, List.length_map _, ?_⟩
    · rw [List.zipWith_map_right, List.zipWith_self]
    · intro table htable
      obtain ⟨ref, href, rfl⟩ := List.mem_map.mp htable
      obtain ⟨names, written, checked⟩ := exists_tableText joined called href
      exact ⟨names, written, fun name hname =>
        ⟨checked name hname, Name.isUnquoted_of_checkRelation (checked name hname)⟩⟩
  · intro s' es hexpressions e he
    obtain ⟨trees, hf, hes⟩ := exists_trees_of_expressions hexpressions
    obtain ⟨index, arguments, opening, checked, named⟩ :=
      names_of_emitAll constructed joined (ordered.binding?_of_finalize bound hf) hes he
    have aliasName := Name.checkRelation_eq_ok_iff.mpr (Or.inl named)
    exact ⟨index, arguments, opening, Name.isUnquoted_of_checkRelation checked,
      Name.isUnquoted_of_checkRelation aliasName⟩

/-- A relation under an alias with a line feed, and one with a schema in front. -/
def fedAlias : List Operation :=
  [.selectFrom "a" (some "x\n"), .join "s.b" none none "cross",
    .add "x\n" (.predicate (.present "f")) (.text "and")]

theorem names_of_fedAlias_are_checked :
    ∃ s s' parameters, ∃ tables : List String,
      ((new twoRelations .leftToRight).run fedAlias).1 = s ∧
      s.build (.standard .shorthand true) =
        (s', .ok ("SELECT * FROM i.search(query => exists(field=>'f')) AS x\n " ++
          "CROSS JOIN s.b AS b", parameters)) ∧
      tables.length = 2 ∧
      ∀ table ∈ tables, ∃ names, TableText names table ∧
        ∀ name ∈ names, Name.checkRelation name = .ok () ∧ Name.IsUnquoted name := by
  have outcome : let run := (new twoRelations .leftToRight).run fedAlias
      (run.1.build (.standard .shorthand true)).2.toOption.map Prod.fst =
        some ("SELECT * FROM i.search(query => exists(field=>'f')) AS x\n " ++
          "CROSS JOIN s.b AS b") ∧ run.1.refs.length = 2 := by
    decide +kernel
  cases hrun : (new twoRelations .leftToRight).run fedAlias with
  | mk s answers =>
    rw [hrun] at outcome
    obtain ⟨built, two⟩ := outcome
    cases hbuild : s.build (.standard .shorthand true) with
    | mk s' result =>
      rw [hbuild] at built
      cases result with
      | error e => cases built
      | ok pair =>
        obtain ⟨sql, parameters⟩ := pair
        obtain ⟨-, -, -, written, -⟩ := unquoted_names_are_checked twoRelations .leftToRight
          (.standard .shorthand true) constructed_twoRelations hrun
        obtain ⟨tables, -, count, checked⟩ := written s' sql parameters hbuild
        obtain rfl := Option.some.inj built
        exact ⟨s, s', parameters, tables, rfl, hbuild, count.trans two, checked⟩

/-- A line feed at the end of a name passes the check and is written, and behind a line feed no
keyword is seen. -/
theorem line_feed_is_let_through :
    Name.checkRelation "a\n" = .ok () ∧ ¬ Name.IsRelationName "a\n" ∧
    Name.check "select\n" = .ok () ∧ ¬ Name.IsIdentifier "select\n" ∧
    (((new twoRelations .leftToRight).run [.selectFrom "a\n" (some "x")]).1.build
      (.standard .shorthand true)).2.toOption.map Prod.fst = some "SELECT * FROM a\n AS x" := by
  refine ⟨by decide +kernel, ?_, by decide +kernel, ?_, by decide +kernel⟩
  · exact fun h => Name.not_mem_of_isRelationName h (by decide)
  · exact fun h => Name.not_mem_of_isRelationName (Or.inl h) (by decide)

end Statement

end SearchSql
