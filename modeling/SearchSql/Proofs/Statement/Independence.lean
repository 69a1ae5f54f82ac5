import SearchSql.Proofs.Statement.Kinship

/-!
# Independence of the searches

What is done with one alias does not reach the search of another. Two runs in which the same
operations have succeeded for every alias agree on all contents (`agree_of_run`), in whatever order
they were carried out and whatever has failed among them. The trees are then the same, and so are
the calls up to the numbers of their placeholders (`searches_are_independent`).
-/

namespace SearchSql

namespace Statement

variable {s : Statement}

/-- Relations and clauses leave a statement open. -/
theorem open_run {ops : List Operation}
    (kinds : ∀ op ∈ ops, op.isRelation = true ∨ op.isClause = true) (h : s.trees = none) :
    (s.run ops).1.trees = none := by
  induction ops generalizing s with
  | nil => exact h
  | cons op rest ih =>
    obtain ⟨kind, later⟩ := List.forall_mem_cons.mp kinds
    have framing : op.isFraming = true := by rwa [Operation.isFraming, Bool.or_eq_true]
    exact ih later ((apply_framing framing s).1.trans h)

/-- Two runs in which the same has succeeded for every alias. -/
theorem Aligned.agree_of_run (h : s.Aligned) {ops ops' : List Operation}
    (kinds : ∀ op ∈ ops, op.isSearching = true ∨ op.isClause = true)
    (kinds' : ∀ op ∈ ops', op.isSearching = true ∨ op.isClause = true)
    (clauses : ops.filter (·.isClause) = ops'.filter (·.isClause))
    (stays : (s.run ops).1.trees = none) (stays' : (s.run ops').1.trees = none)
    (same : ∀ aliasName, succeeded aliasName ops (s.run ops).2 =
      succeeded aliasName ops' (s.run ops').2) :
    Agree (s.run ops).1 (s.run ops').1 := by
  have framing {ops : List Operation}
      (kinds : ∀ op ∈ ops, op.isSearching = true ∨ op.isClause = true) :
      ops.filter (·.isFraming) = ops.filter (·.isClause) := by
    refine List.filter_congr fun op hop => ?_
    have kind := kinds op hop
    cases op <;> first | rfl | simp [Operation.isSearching, Operation.isClause] at kind
  obtain ⟨left, content⟩ := h.collected_run stays
  obtain ⟨right, content'⟩ := h.collected_run stays'
  refine ⟨left, right, ?_, ?_⟩
  · rw [frame_run, frame_run, framing kinds, framing kinds', clauses]
  · intro aliasName
    rw [content, content', same]

/-- Take a row of relations and clauses, and two runs of operations on searches behind it that have
the same clauses among them. Anything may fail, and the statement stays open in both. If for every
alias the same operations have succeeded in the same order, both statements are finalized or
neither is, with the same tree for every alias; both are built with their literals in their places
or neither is, to the same text; and if both are built with placeholders, the calls of an alias
have the same parameters and the same text, but for the numbers of all placeholders being moved. -/
theorem searches_are_independent (registry : Registry) (strategy : FoldStrategy)
    {before ops ops' : List Operation} {s s' : Statement}
    {answers answers' : List (Except StatementError Answer)}
    (first : ∀ op ∈ before, op.isRelation = true ∨ op.isClause = true)
    (kinds : ∀ op ∈ ops, op.isSearching = true ∨ op.isClause = true)
    (kinds' : ∀ op ∈ ops', op.isSearching = true ∨ op.isClause = true)
    (clauses : ops.filter (·.isClause) = ops'.filter (·.isClause))
    (hrun : ((new registry strategy).run before).1.run ops = (s, answers))
    (hrun' : ((new registry strategy).run before).1.run ops' = (s', answers'))
    (stays : s.trees = none) (stays' : s'.trees = none)
    (same : ∀ aliasName, succeeded aliasName ops answers = succeeded aliasName ops' answers') :
    (∀ aliasName, s.finalize.2.toOption.map (·.find? (·.binding.aliasName = aliasName)) =
      s'.finalize.2.toOption.map (·.find? (·.binding.aliasName = aliasName))) ∧
    (∀ (dialect : Dialect) (maxDepth maxLength : Int),
      (s.build ⟨dialect, false, maxDepth, maxLength⟩).2.toOption =
        (s'.build ⟨dialect, false, maxDepth, maxLength⟩).2.toOption) ∧
    (registry.Constructed → ∀ (dialect : Dialect) (maxDepth maxLength : Int)
      (built built' : String × List Value),
      (s.build ⟨dialect, true, maxDepth, maxLength⟩).2 = .ok built →
      (s'.build ⟨dialect, true, maxDepth, maxLength⟩).2 = .ok built' →
      ∃ es es', (s.expressions ⟨dialect, true, maxDepth, maxLength⟩).2 = .ok es ∧
        (s'.expressions ⟨dialect, true, maxDepth, maxLength⟩).2 = .ok es' ∧
        ∀ aliasName, Option.Rel (fun e e' => ∃ d, e' = { e with sql := renumber d e.sql })
          (es.find? (·.aliasName = aliasName)) (es'.find? (·.aliasName = aliasName))) := by
  have begun : ((new registry strategy).run before).1.Aligned :=
    ((aligned_new registry strategy).collected_run (open_run first rfl)).1
  have sound := (invariant_run registry strategy before).preserve_run ops
  obtain ⟨rfl, rfl⟩ := Prod.mk.inj hrun
  obtain ⟨rfl, rfl⟩ := Prod.mk.inj hrun'
  have kin : Kin _ _ := .opened (begun.agree_of_run kinds kinds' clauses stays stays' same)
  refine ⟨?_, ?_, ?_⟩
  · intro aliasName
    rcases kin.finalize_cases with ⟨e, e', hs, hs'⟩ | ⟨trees, trees', hs, hs', -, -, same⟩
    · rw [hs, hs']
      rfl
    · rw [hs, hs']
      exact congrArg some (same.find aliasName)
  · intro dialect maxDepth maxLength
    exact kin.build_inline rfl
  · intro constructed dialect maxDepth maxLength built built' hs hs'
    obtain ⟨es, hes, -⟩ := exists_expressions_of_build hs
    obtain ⟨es', hes', -⟩ := exists_expressions_of_build hs'
    refine ⟨es, es', hes, hes', kin.expressions_numbered rfl ?_ hes hes'⟩
    intro trees hf
    exact sound.hasPlainNames constructed (Prod.ext rfl hf)

def oneOrder : List Operation := [limitRows, addTerm, .addCondition "c", addFuzzy]

/-- The first operation adds no predicate, but it begins the search of its alias. After the second,
the statement cannot be finalized, for there is an option without a predicate. The alias `d` is
unknown. -/
def otherOrder : List Operation :=
  [.add "a" (.int 3) (.text "and"), limitRows, .finalize,
    .setOption "d" (.text "limit_rows") (.int 7), addFuzzy, .addCondition "c", addTerm]

/-- The text of a statement, if it can be built. -/
def textOf (s : Statement) (parameterize : Bool) : Option String :=
  (s.build (.standard .shorthand parameterize)).2.toOption.map Prod.fst

def crossedText (word number limit : String) : String :=
  "SELECT * FROM i.search(query => fuzzy_term(field=>'f', value=>" ++ word ++
    ", transpose_cost_one=>true)) AS a CROSS JOIN j.search(query => term(field=>'g', value=>" ++
    number ++ "), limit_rows => " ++ limit ++ ") AS b WHERE c"

theorem both_orders_agree :
    (crossed.run otherOrder).2.map (·.isOk) = [false, true, false, false, true, true, true] ∧
    textOf (crossed.run oneOrder).1 false = textOf (crossed.run otherOrder).1 false ∧
    textOf (crossed.run oneOrder).1 true = some (crossedText "$3" "$1" "$2") ∧
    textOf (crossed.run otherOrder).1 true = some (crossedText "$1" "$2" "$3") ∧
    ∃ es es', ((crossed.run oneOrder).1.expressions (.standard .shorthand true)).2 = .ok es ∧
      ((crossed.run otherOrder).1.expressions (.standard .shorthand true)).2 = .ok es' ∧
      ∀ aliasName, Option.Rel (fun e e' => ∃ d, e' = { e with sql := renumber d e.sql })
        (es.find? (·.aliasName = aliasName)) (es'.find? (·.aliasName = aliasName)) := by
  have one : textOf (crossed.run oneOrder).1 true = some (crossedText "$3" "$1" "$2") := by
    decide +kernel
  have other : textOf (crossed.run otherOrder).1 true = some (crossedText "$1" "$2" "$3") := by
    decide +kernel
  have built {s : Statement} {text : String} (h : textOf s true = some text) :
      ∃ b, (s.build (.standard .shorthand true)).2 = .ok b := by
    rw [textOf] at h
    cases hb : (s.build (.standard .shorthand true)).2 with
    | error e =>
      rw [hb] at h
      cases h
    | ok b => exact ⟨b, rfl⟩
  have hrun : crossed.run oneOrder = ((crossed.run oneOrder).1, (crossed.run oneOrder).2) := rfl
  have hrun' : crossed.run otherOrder = ((crossed.run otherOrder).1, (crossed.run otherOrder).2) :=
    rfl
  have first : ∀ op ∈ [Operation.selectFrom "a" none, .join "b" none none "CROSS"],
      op.isRelation = true ∨ op.isClause = true := by
    simp [Operation.isRelation]
  have kinds : ∀ op ∈ oneOrder, op.isSearching = true ∨ op.isClause = true := by
    simp [oneOrder, limitRows, addTerm, addFuzzy, Operation.isSearching, Operation.isClause]
  have kinds' : ∀ op ∈ otherOrder, op.isSearching = true ∨ op.isClause = true := by
    simp [otherOrder, limitRows, addTerm, addFuzzy, Operation.isSearching, Operation.isClause]
  have passed_one : passed oneOrder (crossed.run oneOrder).2 =
      [limitRows, addTerm, .addCondition "c", addFuzzy] := by
    rfl
  have passed_other : passed otherOrder (crossed.run otherOrder).2 =
      [limitRows, addFuzzy, .addCondition "c", addTerm] := by
    rfl
  have same (aliasName : String) : succeeded aliasName oneOrder (crossed.run oneOrder).2 =
      succeeded aliasName otherOrder (crossed.run otherOrder).2 := by
    rw [succeeded, succeeded, passed_one, passed_other]
    by_cases inA : aliasName = "a"
    · simp [inA, limitRows, addTerm, addFuzzy, Operation.alias?]
    · have notA : "a" ≠ aliasName := Ne.symm inA
      simp [notA, List.filter_cons, limitRows, addTerm, addFuzzy, Operation.alias?]
  obtain ⟨-, inline, numbered⟩ := searches_are_independent twoRelations .leftToRight first kinds
    kinds' (by rfl) hrun hrun' (by rfl) (by rfl) same
  obtain ⟨b, hb⟩ := built one
  obtain ⟨b', hb'⟩ := built other
  refine ⟨by decide +kernel, ?_, one, other, ?_⟩
  · exact congrArg (Option.map Prod.fst) (inline .shorthand 100 50000)
  · exact numbered constructed_twoRelations .shorthand 100 50000 b b' hb hb'

end Statement

end SearchSql
