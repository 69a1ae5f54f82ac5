import SearchSql.Proofs.Statement.Closing
import SearchSql.Proofs.Statement.Numbering

/-!
# Finalizing is exact

A statement is finalized exactly when each of its searches fits its index, and then there is one
tree for each search that has predicates. If one search does not fit, none is closed: everything is
validated in a first pass, after which nothing can fail in the second (`finalize_is_exact`).
-/

namespace SearchSql

namespace Search

/-- What a search is expected to satisfy: wherever a field stands in one of its predicates, it is a
field of the index, and wherever a literal does, it can be encoded; and there are no options without
predicates. -/
structure Fits (s : Search) : Prop where
  fields : ∀ e ∈ s.entries, ∀ (q : Predicate Value) f, q.Occurs e.node → q.field? = some f →
    f ∈ s.binding.index.fieldNames
  literals : ∀ e ∈ s.entries, ∀ (q : Predicate Value) v, q.Occurs e.node → q.literal? = some v →
    ∃ l, v.encode = .ok l
  options : s.options ≠ [] → s.entries ≠ []

theorem validate_predicates_iff {binding : Binding} {entries : List (Entry Value)} :
    (∀ e ∈ entries, binding.validate e.node = .ok ()) ↔
      (∀ e ∈ entries, ∀ (q : Predicate Value) f, q.Occurs e.node → q.field? = some f →
        f ∈ binding.index.fieldNames) ∧
      (∀ e ∈ entries, ∀ (q : Predicate Value) v, q.Occurs e.node → q.literal? = some v →
        ∃ l, v.encode = .ok l) := by
  simp only [Binding.validate_eq_ok, Predicate.forall_mem_fields_iff,
    Predicate.forall_mem_literals_iff]
  constructor
  · exact fun valid => ⟨fun e he => (valid e he).1, fun e he => (valid e he).2⟩
  · rintro ⟨fields, literals⟩ e he
    exact ⟨fields e he, literals e he⟩

theorem validate_eq_ok_iff {s : Search} : s.validate = .ok () ↔ s.Fits := by
  have predicates : (s.entries.forM fun e =>
      (s.binding.validate e.node).mapError SearchError.validation) = .ok () ↔
      ∀ e ∈ s.entries, s.binding.validate e.node = .ok () := by
    rw [Except.forM_eq_ok]
    exact forall₂_congr fun e _ => Except.mapError_eq_ok
  have split : s.validate = .ok () ↔
      (∀ e ∈ s.entries, s.binding.validate e.node = .ok ()) ∧
        (s.options ≠ [] → s.entries ≠ []) := by
    rw [← predicates, validate, Except.bind_eq_ok]
    by_cases alone : (s.entries.isEmpty && ! s.options.isEmpty) = true
    · rw [if_pos alone]
      have misplaced : ¬ (s.options ≠ [] → s.entries ≠ []) := by simpa [and_comm] using alone
      simp [misplaced, throw, throwThe, MonadExceptOf.throw]
    · rw [if_neg alone]
      have placed : s.options ≠ [] → s.entries ≠ [] := by
        intro options entries
        apply alone
        simp [options, entries]
      rw [and_iff_left placed]
      constructor
      · rintro ⟨_, ok, _⟩
        exact ok
      · intro ok
        exact ⟨(), ok, rfl⟩
  rw [split, validate_predicates_iff]
  constructor
  · rintro ⟨⟨fields, literals⟩, options⟩
    exact ⟨fields, literals, options⟩
  · intro fits
    exact ⟨⟨fits.fields, fits.literals⟩, fits.options⟩

end Search

namespace Statement

/-- Take any run that leaves the statement open. Its searches are bound to the indexes of their
relations and hold what was successfully added to them; the statement can be finalized if and only
if all of them fit. If it is, all searches are closed, and the trees are those of the searches that
have predicates, each folded by the rule of the statement, with the options that were set. If it is
not, nothing has changed: all searches are still open, and whatever follows goes as if there had
been no attempt. -/
theorem finalize_is_exact (registry : Registry) (strategy : FoldStrategy) {ops : List Operation}
    {s : Statement} {answers : List (Except StatementError Answer)}
    (hrun : (new registry strategy).run ops = (s, answers)) (opened : s.trees = none) :
    (∀ search ∈ s.searches, s.binding? search.binding.aliasName = some search.binding ∧
      search.content =
        (succeeded search.binding.aliasName ops answers).foldl Operation.collect ⟨[], []⟩) ∧
    ((∃ trees, s.finalize.2 = .ok trees) ↔ ∀ search ∈ s.searches, search.Fits) ∧
    (∀ s' trees, s.finalize = (s', .ok trees) →
      s'.trees = some trees ∧ (∀ search ∈ s'.searches, search.isFinalized = true) ∧
      List.Forall₂ (Search.MadeInto strategy)
        (s.searches.filter fun search => ! search.entries.isEmpty) trees) ∧
    (∀ s' e, s.finalize = (s', .error e) →
      s' = s ∧ s.isFinalized = false ∧ (∀ search ∈ s.searches, search.isFinalized = false) ∧
      ∀ later, s.run (.finalize :: later) =
        ((s.run later).1, .error e :: (s.run later).2)) := by
  obtain ⟨rfl, rfl⟩ := Prod.mk.inj hrun
  obtain ⟨aligned, contents⟩ := (aligned_new registry strategy).collected_run opened
  have rule := strategy_run (new registry strategy) ops
  generalize ((new registry strategy).run ops).1 = s at *
  have fits : (∀ search ∈ s.searches, search.validate = .ok ()) ↔
      ∀ search ∈ s.searches, search.Fits := by
    exact forall₂_congr fun search _ => Search.validate_eq_ok_iff
  refine ⟨?_, ?_, ?_, ?_⟩
  · intro search hs
    refine ⟨aligned.bound search hs, Eq.trans ?_ (contents search.binding.aliasName)⟩
    rw [content, aligned.search?_of_mem hs]
  · rw [← fits]
    rcases aligned.finalize_cases with ⟨valid, hf⟩ | ⟨invalid, e, hf⟩
    · exact iff_of_true ⟨_, congrArg Prod.snd hf⟩ valid
    · refine iff_of_false ?_ invalid
      rintro ⟨trees, ok⟩
      rw [hf] at ok
      cases ok
  · intro s' trees hf
    rcases aligned.finalize_cases with ⟨-, hok⟩ | ⟨-, e, herror⟩
    · cases hok.symm.trans hf
      refine ⟨rfl, ?_, ?_⟩
      · intro search hs
        obtain ⟨t, -, rfl⟩ := List.mem_map.mp hs
        rfl
      · have made := Search.forall₂_tree s.strategy s.searches
        rw [rule] at made
        rw [collected, rule]
        exact made
    · cases herror.symm.trans hf
  · intro s' e hf
    obtain rfl := finalize_eq_error hf
    refine ⟨rfl, ?_, ?_, ?_⟩
    · rw [isFinalized, aligned.trees]
      rfl
    · intro search hs
      rw [Search.isFinalized, aligned.opened search hs]
      rfl
    · intro later
      have applied : s'.apply .finalize = (s', .error e) := by
        rw [apply, answer, hf]
        rfl
      rw [run, applied]

/-- The second search has a field of the first index, two levels down. -/
def deepMistake : List Operation :=
  [.selectFrom "a" none, .join "b" none none "CROSS", addFuzzy,
    .add "b" (.predicate (.boolean .should (.parse "x") [.boolean .mustNot (.present "f") []]))
      (.text "or")]

theorem deep_mistake_closes_nothing :
    (¬ ∀ search ∈ ((new twoRelations .leftToRight).run deepMistake).1.searches, search.Fits) ∧
    ((new twoRelations .leftToRight).run deepMistake).1.finalize.1 =
      ((new twoRelations .leftToRight).run deepMistake).1 ∧
    ((new twoRelations .leftToRight).run deepMistake).1.searches.map (·.isFinalized) =
      [false, false] ∧
    ((new twoRelations .leftToRight).run (deepMistake ++ [.finalize, limitRows])).2.map (·.isOk) =
      [true, true, true, true, false, true] := by
  have refused : ((new twoRelations .leftToRight).run deepMistake).1.finalize.2.isOk = false := by
    decide +kernel
  have hrun : (new twoRelations .leftToRight).run deepMistake =
      (((new twoRelations .leftToRight).run deepMistake).1,
        ((new twoRelations .leftToRight).run deepMistake).2) := rfl
  obtain ⟨-, fits, -, kept⟩ := finalize_is_exact twoRelations .leftToRight hrun rfl
  refine ⟨?_, ?_, by decide +kernel, by decide +kernel⟩
  · intro all
    obtain ⟨trees, ok⟩ := fits.mpr all
    rw [ok] at refused
    cases refused
  · cases hf : ((new twoRelations .leftToRight).run deepMistake).1.finalize with
    | mk s result =>
      cases result with
      | error e => exact (kept s e hf).1
      | ok trees =>
        rw [hf] at refused
        cases refused

end Statement

end SearchSql
