import SearchSql.Proofs.Statement.Invariant

/-!
# What emission can come to

Validation looks at the predicates as they were added, emission at the tree they are folded into.
Still nothing is left for emission to complain of but its limits and nodes of unknown types.
-/

namespace SearchSql

namespace Statement

/-- The trees of a finalized statement refer to fields of their index and compare with literals.
Their emission stops at a limit, or at a node of an unknown type that was added, or not at all. -/
theorem finalized_trees_emit_safely (registry : Registry) (strategy : FoldStrategy)
    (ops : List Operation) {s : Statement} {trees : List SearchTree}
    (h : ((new registry strategy).run ops).1.finalize = (s, .ok trees)) :
    ∀ tree ∈ trees,
      tree.binding.index ∈ registry.indexes ∧
      (∀ f ∈ tree.root.fields, f ∈ tree.binding.index.fieldNames) ∧
      (∀ v ∈ tree.root.literals, v.IsLiteral) ∧
      ∀ settings first e, tree.emit settings first = .error e →
        (∃ d, e = .depth d settings.maxDepth) ∨
        e = .length settings.maxLength ∨
        ∃ n, e = .unsupported n ∧
          ∃ p ∈ addedBy ops ((new registry strategy).run ops).2, .foreign n ∈ p.nodes := by
  intro tree htree
  have sound := (invariant_run registry strategy ops).tree_of_finalize h tree htree
  refine ⟨sound.index, sound.fields, sound.validated.literals, ?_⟩
  intro settings first e he
  rcases sound.validated.emit_error he with deep | long | ⟨n, rfl, hn⟩
  · exact Or.inl deep
  · exact Or.inr (Or.inl long)
  · exact Or.inr (Or.inr ⟨n, rfl, sound.foreign n hn⟩)

/-- A search for a title that also has a node of an unknown type. -/
def oddSearch : List Operation :=
  [.selectFrom "docs" none,
    .add "docs" (.predicate (.term "title" (.text "x"))) (.text "and"),
    .add "docs" (.predicate (.foreign "Odd")) (.text "or"),
    .setOption "docs" (.text "limit_rows") (.int 3)]

/-- The registry of an index over titles. -/
def titles : Registry := ⟨[⟨"docs", "docs_idx", ["title"], none⟩]⟩

theorem odd_search_emits_safely :
    ∃ s tree, ((new titles .leftToRight).run oddSearch).1.finalize = (s, .ok [tree]) ∧
      (∀ f ∈ tree.root.fields, f ∈ tree.binding.index.fieldNames) ∧
      tree.emit (.standard .paradedb true) 1 = .error (.unsupported "Odd") ∧
      ∃ p ∈ addedBy oddSearch ((new titles .leftToRight).run oddSearch).2,
        .foreign "Odd" ∈ p.nodes := by
  have outcome : (((new titles .leftToRight).run oddSearch).1.finalize.2.toOption.map fun trees =>
      trees.map fun tree => match tree.emit (.standard .paradedb true) 1 with
        | .ok _ => none
        | .error e => some e) = some [some (.unsupported "Odd")] := by
    decide +kernel
  cases h : ((new titles .leftToRight).run oddSearch).1.finalize with
  | mk s result =>
    rw [h] at outcome
    cases result with
    | error e => cases outcome
    | ok trees =>
      simp only [Except.toOption, Option.map_some, Option.some.injEq] at outcome
      obtain ⟨tree, rfl⟩ : ∃ tree, trees = [tree] := by
        rw [← List.length_eq_one_iff]
        simpa using congrArg List.length outcome
      obtain ⟨-, declared, -, safe⟩ :=
        finalized_trees_emit_safely titles .leftToRight oddSearch h tree List.mem_cons_self
      cases he : tree.emit (.standard .paradedb true) 1 with
      | ok e =>
        rw [List.map_singleton, he] at outcome
        cases outcome
      | error e =>
        rw [List.map_singleton, he] at outcome
        cases outcome
        rcases safe _ 1 _ he with ⟨d, deep⟩ | long | ⟨n, hn, added⟩
        · cases deep
        · cases long
        · cases hn
          exact ⟨s, tree, rfl, declared, he, added⟩

end Statement

end SearchSql
