import SearchSql.Proofs.Statement.Independence
import SearchSql.Proofs.Statement.Order

/-!
# What a failed operation leaves behind

An operation that fails leaves the statement as it was, unless it is the first to reach the search
of its alias: then that search has been begun, and is empty. Whatever follows, such a search has no
tree; but it has a place among the others, so the calls may come in another order and with other
numbers. Nothing else can be told from the answers (`failed_operation_moves_at_most`).
-/

namespace SearchSql

namespace Statement

variable {s : Statement}

/-- An operation is the first to reach a search, which is begun with the given binding. -/
def Begins (s : Statement) (op : Operation) (binding : Binding) : Prop :=
  s.trees = none ∧ ∃ aliasName, op.alias? = some aliasName ∧
    s.search? aliasName = none ∧ s.binding? aliasName = some binding

theorem change_eq_error {next : Except StatementError Statement} {e : StatementError}
    (h : (s.change next).2 = .error e) : (s.change next).1 = s := by
  cases next with
  | error e => rfl
  | ok s' => cases h

theorem apply_error {op : Operation} {e : StatementError} (bound : s.trees = none → s.BindsSearches)
    (kind : op.isRelation = true ∨ op.isSearching = true) (fails : (s.apply op).2 = .error e) :
    (s.apply op).1 = s ∨ ∃ binding, s.Begins op binding := by
  cases named : op.alias? with
  | none =>
    refine Or.inl ?_
    cases op with
    | selectFrom relation aliasName => exact change_eq_error fails
    | join relation aliasName condition kind => exact change_eq_error fails
    | finalize =>
      cases hf : s.finalize with
      | mk s' result =>
        have applied : (s.apply .finalize).1 = s' := congrArg Prod.fst hf
        cases result with
        | error e => exact applied.trans (finalize_eq_error hf)
        | ok trees =>
          rw [apply, answer, hf] at fails
          cases fails
    | add => cases named
    | setOption => cases named
    | _ => rcases kind with kind | kind <;> cases kind
  | some aliasName =>
    rcases apply_searching named s with ⟨e, -, ht⟩ | ⟨t, search, hbegin, ⟨e, ht⟩ | ⟨ht, -⟩⟩
    · rw [ht]
      exact Or.inl rfl
    · rw [ht]
      obtain ⟨opened, -⟩ := beginSearch_eq_ok hbegin
      rcases beginSearch_cases (bound opened) hbegin with ⟨-, rfl⟩ | ⟨new, binding, hbinding, -, -⟩
      · exact Or.inl rfl
      · exact Or.inr ⟨binding, opened, aliasName, named, new, hbinding⟩
    · rw [ht] at fails
      cases fails

theorem Begins.apply_error {op : Operation} {binding : Binding} {e : StatementError}
    (h : s.Begins op binding) (bound : s.trees = none → s.BindsSearches)
    (fails : (s.apply op).2 = .error e) :
    (s.apply op).1 = s.withEmpty binding := by
  obtain ⟨opened, aliasName, named, new, hbinding⟩ := h
  have hbegin := beginSearch_new (bound opened) opened new hbinding
  rcases apply_searching named s with ⟨e, herror, -⟩ | ⟨t, search, hok, ⟨e, ht⟩ | ⟨ht, -⟩⟩
  · rw [hbegin] at herror
    cases herror
  · cases hbegin.symm.trans hok
    rw [ht]
  · rw [ht] at fails
    cases fails

/-- A statement that was reached is kin to what a failed operation makes of it. -/
theorem Ordered.kin_apply {history : List Reach} (h : Ordered history s) {op : Operation}
    {e : StatementError} (kind : op.isRelation = true ∨ op.isSearching = true)
    (fails : (s.apply op).2 = .error e) : Kin s (s.apply op).1 := by
  have bound : s.trees = none → s.BindsSearches := fun opened => (h.begun opened).1.bindings
  cases opened : s.trees with
  | none =>
    have aligned := (h.begun opened).1
    have stays : (s.apply op).1.trees = none := by
      rcases apply_error bound kind fails with ht | ⟨binding, begins⟩
      · rw [ht, opened]
      · rw [begins.apply_error bound fails]
        exact opened
    have change := aligned.changes_apply stays
    refine .opened ⟨aligned, change.aligned, ?_, ?_⟩
    · rcases apply_error bound kind fails with ht | ⟨binding, begins⟩
      · rw [ht]
      · rw [begins.apply_error bound fails]
        rfl
    · intro aliasName
      rw [change.content, fails, if_neg fun own => Bool.false_ne_true own.2]
  | some trees =>
    have kept : (s.apply op).1 = s := by
      rcases apply_error bound kind fails with ht | ⟨binding, begins, -⟩
      · exact ht
      · cases begins.symm.trans opened
    have nodup : (trees.map (·.binding.aliasName)).Nodup := by
      rw [h.closed trees opened]
      exact (nodup_firstReached history).filter _
    rw [kept]
    exact .closed rfl opened opened ⟨fun _ => rfl, nodup, nodup⟩

/-- Take any run, and an operation on the relations or the searches that fails after it. If it is
not the first to reach a search, whatever follows goes as if it had not been tried. If it is, the
search is begun and left empty; and whatever follows, the answers tally with those that would have
been given without it: they differ at most in the order of the searches, and thereby in which error
comes first and in the numbers of the placeholders. -/
theorem failed_operation_moves_at_most (registry : Registry) (strategy : FoldStrategy)
    {ops : List Operation} {s : Statement} {answers : List (Except StatementError Answer)}
    {op : Operation} {e : StatementError} (constructed : registry.Constructed)
    (hrun : (new registry strategy).run ops = (s, answers))
    (kind : op.isRelation = true ∨ op.isSearching = true) (fails : (s.apply op).2 = .error e) :
    ((∀ binding, ¬ s.Begins op binding) →
      ∀ later, s.run (op :: later) = ((s.run later).1, .error e :: (s.run later).2)) ∧
    (∀ binding, s.Begins op binding → (s.apply op).1 = s.withEmpty binding) ∧
    ∀ later, ∃ after, (s.run (op :: later)).2 = .error e :: after ∧
      Tally later (s.run later).2 after := by
  obtain ⟨rfl, rfl⟩ := Prod.mk.inj hrun
  have ordered := (Ordered.initial registry strategy).preserve_run ops
  have sound := invariant_run registry strategy ops
  generalize ((new registry strategy).run ops).1 = s at *
  have bound : s.trees = none → s.BindsSearches := fun opened => (ordered.begun opened).1.bindings
  refine ⟨?_, fun binding begins => begins.apply_error bound fails, ?_⟩
  · intro unbegun later
    have kept : (s.apply op).1 = s := by
      rcases apply_error bound kind fails with ht | ⟨binding, begins⟩
      · exact ht
      · exact absurd begins (unbegun binding)
    have applied : s.apply op = (s, .error e) := Prod.ext kept fails
    rw [run, applied]
  · intro later
    refine ⟨((s.apply op).1.run later).2, ?_, ?_⟩
    · exact congrArg (· :: ((s.apply op).1.run later).2) fails
    · exact (ordered.kin_apply kind fails).run constructed sound later

/-- A value that is no predicate. -/
def refused : Operation := .add "a" (.int 3) (.text "and")

theorem refused_predicate_begins_search :
    crossed.Begins refused ⟨"a", "a", ⟨"a", "i", ["f"], none⟩⟩ ∧
    (crossed.run [refused]).2.map (·.isOk) = [false] ∧
    (crossed.apply refused).1.searched = ["a"] ∧
    ∀ later, ∃ e after, (crossed.run (refused :: later)).2 = .error e :: after ∧
      Tally later (crossed.run later).2 after := by
  have begins : crossed.Begins refused ⟨"a", "a", ⟨"a", "i", ["f"], none⟩⟩ :=
    ⟨rfl, "a", rfl, rfl, rfl⟩
  have hrun : (new twoRelations .leftToRight).run
      [.selectFrom "a" none, .join "b" none none "CROSS"] =
      (crossed, ((new twoRelations .leftToRight).run
        [.selectFrom "a" none, .join "b" none none "CROSS"]).2) := rfl
  obtain ⟨e, fails⟩ : ∃ e, (crossed.apply refused).2 = .error e := ⟨_, rfl⟩
  obtain ⟨-, begun, tally⟩ := failed_operation_moves_at_most twoRelations .leftToRight
    constructed_twoRelations hrun (Or.inr rfl) fails
  refine ⟨begins, rfl, ?_, ?_⟩
  · rw [begun _ begins]
    rfl
  · intro later
    obtain ⟨after, answered, same⟩ := tally later
    exact ⟨e, after, answered, same⟩

theorem refused_predicate_moves_numbers :
    (crossed.run [refused]).2.map (·.isOk) = [false] ∧
    textOf (crossed.run oneOrder).1 true = some (crossedText "$3" "$1" "$2") ∧
    textOf (crossed.run (refused :: oneOrder)).1 true = some (crossedText "$1" "$2" "$3") := by
  refine ⟨rfl, ?_, ?_⟩ <;> decide +kernel

end Statement

end SearchSql
