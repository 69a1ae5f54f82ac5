import SearchSql.Proofs.Statement.Finalizing
import SearchSql.Search.Run
import SearchSql.Value.Equality

/-!
# Runs of a search

A search is kept in one place, and its operations change it step by step. Each of them makes all
its checks before its first change, so one that fails changes nothing (`apply_cases`). Therefore a
search holds just what was successfully added and set. Once it is finalized it is closed for good
and keeps the tree it was given first (`search_collects_until_finalized`).
-/

namespace SearchSql

namespace Search

variable {s s' : Search}

/-! ## Actions -/

/-- A search that is replaced by the result of an operation, if it has one. -/
def settle (s : Search) (result : Except SearchError Search) : Search × Except SearchError Unit :=
  match result with
  | .ok s' => (s', .ok ())
  | .error e => (s, .error e)

theorem on_requireOpen (s : Search) : Action.requireOpen.on s = (s, s.requireOpen) := by
  rw [Action.requireOpen, Action.on_bind_ok (Action.on_get s), Search.requireOpen]
  cases s.isFinalized with
  | true => rfl
  | false => rfl

theorem on_add (s : Search) (node how : Value) :
    (Action.add node how).on s = s.settle (s.add node how) := by
  unfold Action.add Search.add
  cases opened : s.requireOpen with
  | error e =>
    rw [Action.on_bind_error ((on_requireOpen s).trans (by rw [opened]))]
    rfl
  | ok u =>
    rw [Action.on_bind_ok ((on_requireOpen s).trans (by rw [opened]))]
    cases node with
    | predicate p => cases requireJoin how <;> rfl
    | _ => rfl

theorem on_setOption (s : Search) (name value : Value) :
    (Action.setOption name value).on s = s.settle (s.setOption name value) := by
  unfold Action.setOption Search.setOption
  cases opened : s.requireOpen with
  | error e =>
    rw [Action.on_bind_error ((on_requireOpen s).trans (by rw [opened]))]
    rfl
  | ok u =>
    rw [Action.on_bind_ok ((on_requireOpen s).trans (by rw [opened]))]
    cases (SearchOption.check name value).mapError SearchError.option <;> rfl

theorem on_forM {α : Type} (check : α → Except SearchError Unit) (l : List α) (s : Search) :
    Action.on (l.forM fun a => Action.ofExcept (check a)) s = (s, l.forM check) := by
  induction l with
  | nil => rfl
  | cons a l ih =>
    simp only [List.forM_eq_forM, List.forM_cons] at ih ⊢
    have checked := Action.on_ofExcept (check a) s
    cases failing : check a with
    | error e =>
      rw [failing] at checked
      exact Action.on_bind_error checked _
    | ok u =>
      rw [failing] at checked
      rw [Action.on_bind_ok checked, ih]
      rfl

theorem on_validate (s : Search) : Action.validate.on s = (s, s.validate) := by
  have each := on_forM (fun e => (s.binding.validate e.node).mapError SearchError.validation)
    s.entries s
  rw [Action.validate, Action.on_bind_ok (Action.on_get s), Search.validate]
  cases failing : s.entries.forM fun e =>
      (s.binding.validate e.node).mapError SearchError.validation with
  | error e =>
    rw [failing] at each
    exact Action.on_bind_error each _
  | ok u =>
    rw [failing] at each
    rw [Action.on_bind_ok each]
    cases s.entries.isEmpty && ! s.options.isEmpty <;> rfl

/-- The search is closed and given its tree in two steps, but nothing can fail in between. -/
theorem on_finalize (s : Search) (strategy : Value) :
    (Action.finalize strategy).on s =
      match s.finalize strategy with
      | .ok (s', tree) => (s', .ok tree)
      | .error e => (s, .error e) := by
  rw [Action.finalize, Action.on_bind_ok (Action.on_get s), Search.finalize]
  cases closed : s.closed with
  | some tree => rfl
  | none =>
    have validated := on_validate s
    cases failing : s.validate with
    | error e =>
      rw [failing] at validated
      exact Action.on_bind_error validated _
    | ok u =>
      rw [failing] at validated
      simp only [Action.on_bind_ok validated]
      cases (Entry.normalizeBy strategy s.entries).mapError SearchError.misuse with
      | error e => rfl
      | ok root => cases root <;> rfl

/-! ## When an operation succeeds -/

theorem requireJoin_eq_ok {how : Value} {op : JoinOp} :
    requireJoin how = .ok op ↔ how = .text op.name := by
  constructor
  · intro h
    cases how with
    | text name =>
      unfold requireJoin at h
      cases found : JoinOp.ofName? name with
      | none =>
        simp only [found] at h
        cases h
      | some op' =>
        simp only [found] at h
        cases h
        have named : op.name = name := by simpa using List.find?_some found
        rw [named]
    | _ => cases h
  · rintro rfl
    cases op <;> rfl

theorem ofValue?_eq_some {name : Value} {o : SearchOption} :
    SearchOption.ofValue? name = some o ↔ name = .text o.name := by
  constructor
  · intro h
    cases name with
    | text name =>
      have named : o.name = name := by simpa using List.find?_some h
      rw [named]
    | _ => cases h
  · rintro rfl
    cases o <;> rfl

theorem check_eq_ok_iff {name value : Value} {o : SearchOption} :
    SearchOption.check name value = .ok o ↔ name = .text o.name ∧ o.accepts value = true := by
  rw [← ofValue?_eq_some, SearchOption.check]
  cases SearchOption.ofValue? name with
  | none => simp
  | some o' =>
    by_cases accepted : o'.accepts value = true
    · simp only [accepted, if_true, Except.ok.injEq, Option.some.injEq]
      constructor
      · rintro rfl
        exact ⟨rfl, accepted⟩
      · exact And.left
    · have refused : ¬ (some o' = some o ∧ o.accepts value = true) := by
        rintro ⟨⟨⟩, accepted'⟩
        exact accepted accepted'
      simp only [accepted, refused, iff_false]
      cases o' <;> exact nofun

theorem add_eq_ok_iff {node how : Value} :
    s.add node how = .ok s' ↔ s.closed = none ∧ ∃ p op, node = .predicate p ∧
      how = .text (JoinOp.name op) ∧ s' = { s with entries := s.entries ++ [⟨op, p⟩] } := by
  constructor
  · intro h
    obtain ⟨_, opened, h⟩ := Except.bind_eq_ok.mp h
    refine ⟨requireOpen_eq_ok.mp opened, ?_⟩
    cases node with
    | predicate p =>
      obtain ⟨op, named, hs'⟩ := Except.bind_eq_ok.mp h
      cases hs'
      exact ⟨p, op, rfl, requireJoin_eq_ok.mp named, rfl⟩
    | _ => cases h
  · rintro ⟨opened, p, op, rfl, named, rfl⟩
    refine Except.bind_eq_ok.mpr ⟨(), requireOpen_eq_ok.mpr opened, ?_⟩
    exact Except.bind_eq_ok.mpr ⟨op, requireJoin_eq_ok.mpr named, rfl⟩

theorem setOption_eq_ok_iff {name value : Value} :
    s.setOption name value = .ok s' ↔ s.closed = none ∧ ∃ o, name = .text (SearchOption.name o) ∧
      o.accepts value = true ∧ s' = { s with options := s.options.put o value } := by
  constructor
  · intro h
    obtain ⟨_, opened, h⟩ := Except.bind_eq_ok.mp h
    obtain ⟨o, checked, hs'⟩ := Except.bind_eq_ok.mp h
    cases hs'
    obtain ⟨named, accepted⟩ := check_eq_ok_iff.mp (Except.mapError_eq_ok.mp checked)
    exact ⟨requireOpen_eq_ok.mp opened, o, named, accepted, rfl⟩
  · rintro ⟨opened, o, named, accepted, rfl⟩
    have checked := check_eq_ok_iff.mpr ⟨named, accepted⟩
    refine Except.bind_eq_ok.mpr ⟨(), requireOpen_eq_ok.mpr opened, ?_⟩
    exact Except.bind_eq_ok.mpr ⟨o, Except.mapError_eq_ok.mpr checked, rfl⟩

theorem ofValue_eq_ok {strategy : Value} {rule : FoldStrategy} :
    FoldStrategy.ofValue strategy = .ok rule ↔ strategy = .text rule.name := by
  constructor
  · intro h
    cases strategy with
    | text name =>
      unfold FoldStrategy.ofValue member at h
      cases found : FoldStrategy.ofName? name with
      | none =>
        simp only [found] at h
        cases h
      | some rule' =>
        simp only [found] at h
        cases h
        have named : rule.name = name := by simpa using List.find?_some found
        rw [named]
    | _ => cases h
  · rintro rfl
    cases rule <;> rfl

/-- What is folded: nothing without entries, whatever the rule; and the entries, by a rule that is
known by its name. -/
theorem normalizeBy_eq_ok_iff {strategy : Value} {entries : List (Entry Value)}
    {root : Option (Predicate Value)} :
    Entry.normalizeBy strategy entries = .ok root ↔
      (entries = [] ∧ root = none) ∨
      ∃ rule p, strategy = .text (FoldStrategy.name rule) ∧
        Entry.normalize rule entries = some p ∧ root = some p := by
  cases entries with
  | nil =>
    have empty (rule : FoldStrategy) : Entry.normalize rule ([] : List (Entry Value)) = none := rfl
    simp [Entry.normalizeBy, empty, eq_comm]
  | cons first rest =>
    have full (rule : FoldStrategy) : ∃ p, Entry.normalize rule (first :: rest) = some p := ⟨_, rfl⟩
    rw [Entry.normalizeBy, List.isEmpty_cons, if_neg Bool.false_ne_true, Except.map_eq_ok]
    constructor
    · rintro ⟨rule, named, rfl⟩
      obtain ⟨p, hp⟩ := full rule
      exact Or.inr ⟨rule, p, ofValue_eq_ok.mp named, hp, hp⟩
    · rintro (⟨⟨⟩, -⟩ | ⟨rule, p, named, hp, rfl⟩)
      exact ⟨rule, ofValue_eq_ok.mpr named, hp⟩

/-- An open search is finalized if it fits and, should it have entries, there is a rule to fold
them by. -/
theorem finalize_eq_ok_iff {strategy : Value} {tree : Option SearchTree}
    (opened : s.closed = none) :
    s.finalize strategy = .ok (s', tree) ↔ s.Fits ∧ s' = { s with closed := some tree } ∧
      ((s.entries = [] ∧ tree = none) ∨
        ∃ rule p, strategy = .text (FoldStrategy.name rule) ∧
          Entry.normalize rule s.entries = some p ∧ tree = some ⟨s.binding, p, s.options⟩) := by
  have steps : s.finalize strategy = .ok (s', tree) ↔ s.validate = .ok () ∧
      ∃ root, Entry.normalizeBy strategy s.entries = .ok root ∧
        tree = root.map (⟨s.binding, ·, s.options⟩) ∧ s' = { s with closed := some tree } := by
    rw [Search.finalize, opened]
    constructor
    · intro h
      obtain ⟨_, valid, h⟩ := Except.bind_eq_ok.mp h
      obtain ⟨root, folded, made⟩ := Except.bind_eq_ok.mp h
      cases made
      exact ⟨valid, root, Except.mapError_eq_ok.mp folded, rfl, rfl⟩
    · rintro ⟨valid, root, folded, rfl, rfl⟩
      refine Except.bind_eq_ok.mpr ⟨(), valid, ?_⟩
      exact Except.bind_eq_ok.mpr ⟨root, Except.mapError_eq_ok.mpr folded, rfl⟩
  rw [steps, validate_eq_ok_iff]
  refine and_congr_right fun _ => ?_
  simp only [normalizeBy_eq_ok_iff]
  constructor
  · rintro ⟨root, ⟨empty, rfl⟩ | ⟨rule, p, named, folded, rfl⟩, rfl, rfl⟩
    · exact ⟨rfl, Or.inl ⟨empty, rfl⟩⟩
    · exact ⟨rfl, Or.inr ⟨rule, p, named, folded, rfl⟩⟩
  · rintro ⟨rfl, ⟨empty, rfl⟩ | ⟨rule, p, named, folded, rfl⟩⟩
    · exact ⟨none, Or.inl ⟨empty, rfl⟩, rfl, rfl⟩
    · exact ⟨some p, Or.inr ⟨rule, p, named, folded, rfl⟩, rfl, rfl⟩

theorem exists_finalize_iff {strategy : Value} (opened : s.closed = none) :
    (∃ s' tree, s.finalize strategy = .ok (s', tree)) ↔
      s.Fits ∧ (s.entries ≠ [] → ∃ rule, strategy = .text (FoldStrategy.name rule)) := by
  constructor
  · rintro ⟨s', tree, h⟩
    obtain ⟨fits, -, ⟨empty, -⟩ | ⟨rule, p, named, -, -⟩⟩ := (finalize_eq_ok_iff opened).mp h
    · exact ⟨fits, fun full => absurd empty full⟩
    · exact ⟨fits, fun _ => ⟨rule, named⟩⟩
  · rintro ⟨fits, named⟩
    cases hentries : s.entries with
    | nil =>
      exact ⟨_, _, (finalize_eq_ok_iff opened).mpr ⟨fits, rfl, Or.inl ⟨hentries, rfl⟩⟩⟩
    | cons first rest =>
      obtain ⟨rule, named⟩ := named (by simp [hentries])
      have ⟨p, folded⟩ : ∃ p, Entry.normalize rule s.entries = some p := by
        rw [hentries]
        exact ⟨_, rfl⟩
      exact ⟨_, _, (finalize_eq_ok_iff opened).mpr
        ⟨fits, rfl, Or.inr ⟨rule, p, named, folded, rfl⟩⟩⟩

/-! ## One operation -/

namespace Operation

/-- The entry that an operation adds, if it succeeds. -/
def addition? : Operation → Option (Entry Value)
  | .add (.predicate p) (.text how) => (JoinOp.ofName? how).map (⟨·, p⟩)
  | _ => none

/-- The option that an operation sets and its value, if it succeeds. -/
def setting? : Operation → Option (SearchOption × Value)
  | .setOption (.text name) value => (SearchOption.ofName? name).map (·, value)
  | _ => none

def isFinalize : Operation → Bool
  | .finalize _ => true
  | _ => false

/-- What is required of an operation, so that it succeeds on a search. -/
def Admissible (s : Search) : Operation → Prop
  | .add node how => s.closed = none ∧ (∃ p, node = .predicate p) ∧
    ∃ op, how = .text (JoinOp.name op)
  | .setOption name value => s.closed = none ∧
    ∃ o, name = .text (SearchOption.name o) ∧ o.accepts value = true
  | .validate => s.Fits
  | .finalize strategy => s.closed = none →
    s.Fits ∧ (s.entries ≠ [] → ∃ rule, strategy = .text (FoldStrategy.name rule))

/-- What a search is after an operation that has succeeded on it. -/
structure Changes (s : Search) (op : Operation) (s' : Search) : Prop where
  binding : s'.binding = s.binding
  entries : s'.entries = s.entries ++ op.addition?.toList
  options : ∀ o, s'.options.get? o = (op.setting?.toList.lookup o).or (s.options.get? o)
  closed : s'.closed = none ↔ s.closed = none ∧ op.isFinalize = false

end Operation

/-- The result of an action that gives no tree. -/
theorem on_return {action : Action Unit} {result : Except SearchError Search}
    (h : action.on s = s.settle result) :
    Action.on (do action; return none) s =
      match result with
      | .ok s' => (s', .ok (none : Option SearchTree))
      | .error e => (s, .error e) := by
  cases result with
  | ok s' => rw [Action.on_bind_ok h, Action.on_pure]
  | error e => rw [Action.on_bind_error h]

theorem apply_add (s : Search) (node how : Value) :
    s.apply (.add node how) =
      match s.add node how with
      | .ok s' => (s', .ok none)
      | .error e => (s, .error e) :=
  on_return (on_add s node how)

theorem apply_setOption (s : Search) (name value : Value) :
    s.apply (.setOption name value) =
      match s.setOption name value with
      | .ok s' => (s', .ok none)
      | .error e => (s, .error e) :=
  on_return (on_setOption s name value)

theorem apply_validate (s : Search) :
    s.apply .validate =
      match s.validate with
      | .ok () => (s, .ok none)
      | .error e => (s, .error e) := by
  have validated : Action.validate.on s = s.settle (s.validate.map fun _ => s) := by
    rw [on_validate]
    cases s.validate <;> rfl
  refine (on_return validated).trans ?_
  cases s.validate <;> rfl

theorem apply_finalize (s : Search) (strategy : Value) :
    s.apply (.finalize strategy) =
      match s.finalize strategy with
      | .ok (s', tree) => (s', .ok tree)
      | .error e => (s, .error e) :=
  on_finalize s strategy

theorem finalize_of_apply {strategy : Value} {tree : Option SearchTree}
    (applied : s.apply (.finalize strategy) = (s', .ok tree)) :
    s.finalize strategy = .ok (s', tree) := by
  rw [apply_finalize] at applied
  cases finalized : s.finalize strategy with
  | error e =>
    rw [finalized] at applied
    cases applied
  | ok pair =>
    rw [finalized] at applied
    cases applied
    rfl

theorem finalize_closed {tree : Option SearchTree} (closed : s.closed = some tree)
    (strategy : Value) : s.finalize strategy = .ok (s, tree) := by
  rw [Search.finalize, closed]

/-- An operation fails and changes nothing, or all that was required of it holds and it changes the
search accordingly. -/
theorem apply_cases (s : Search) (op : Operation) :
    (¬ op.Admissible s ∧ ∃ e, s.apply op = (s, .error e)) ∨
    (op.Admissible s ∧ (∃ tree, (s.apply op).2 = .ok tree) ∧ op.Changes s (s.apply op).1) := by
  cases op with
  | add node how =>
    rw [apply_add]
    cases added : s.add node how with
    | ok s' =>
      obtain ⟨opened, p, op, rfl, rfl, rfl⟩ := add_eq_ok_iff.mp added
      refine Or.inr ⟨⟨opened, ⟨p, rfl⟩, op, rfl⟩, ⟨none, rfl⟩, rfl, ?_, fun _ => rfl, ?_⟩
      · have named : JoinOp.ofName? op.name = some op := by cases op <;> rfl
        simp only [Operation.addition?, named]
        rfl
      · exact iff_of_true opened ⟨opened, rfl⟩
    | error e =>
      refine Or.inl ⟨?_, e, rfl⟩
      rintro ⟨opened, ⟨p, rfl⟩, op, rfl⟩
      rw [add_eq_ok_iff.mpr ⟨opened, p, op, rfl, rfl, rfl⟩] at added
      cases added
  | setOption name value =>
    rw [apply_setOption]
    cases set : s.setOption name value with
    | ok s' =>
      obtain ⟨opened, o, rfl, accepted, rfl⟩ := setOption_eq_ok_iff.mp set
      refine Or.inr ⟨⟨opened, o, rfl, accepted⟩, ⟨none, rfl⟩, rfl, (List.append_nil _).symm, ?_, ?_⟩
      · intro o'
        have named : SearchOption.ofName? o.name = some o := by cases o <;> rfl
        simp only [Table.get?_put, Operation.setting?, named]
        by_cases same : o = o'
        · simp [same]
        · have other : (o' == o) = false := by simpa using Ne.symm same
          simp [same, other, List.lookup_cons]
      · exact iff_of_true opened ⟨opened, rfl⟩
    | error e =>
      refine Or.inl ⟨?_, e, rfl⟩
      rintro ⟨opened, o, rfl, accepted⟩
      rw [setOption_eq_ok_iff.mpr ⟨opened, o, rfl, accepted, rfl⟩] at set
      cases set
  | validate =>
    rw [apply_validate]
    cases valid : s.validate with
    | ok u =>
      refine Or.inr ⟨validate_eq_ok_iff.mp valid, ⟨none, rfl⟩, rfl, (List.append_nil _).symm,
        fun _ => rfl, ?_⟩
      exact (and_iff_left rfl).symm
    | error e =>
      refine Or.inl ⟨?_, e, rfl⟩
      intro fits
      rw [validate_eq_ok_iff.mpr fits] at valid
      cases valid
  | finalize strategy =>
    rw [apply_finalize]
    cases closed : s.closed with
    | some tree =>
      rw [finalize_closed closed]
      have never : s.closed ≠ none := by
        rw [closed]
        exact Option.some_ne_none tree
      refine Or.inr ⟨fun opened => absurd opened never, ⟨tree, rfl⟩, rfl,
        (List.append_nil _).symm, fun _ => rfl, ?_⟩
      exact iff_of_false never fun h => never h.1
    | none =>
      cases finalized : s.finalize strategy with
      | ok pair =>
        obtain ⟨s', tree⟩ := pair
        have admissible := (exists_finalize_iff closed).mp ⟨s', tree, finalized⟩
        obtain ⟨-, rfl, -⟩ := (finalize_eq_ok_iff closed).mp finalized
        refine Or.inr ⟨fun _ => admissible, ⟨tree, rfl⟩, rfl, (List.append_nil _).symm,
          fun _ => rfl, ?_⟩
        exact iff_of_false (Option.some_ne_none tree) fun h => Bool.noConfusion h.2
      | error e =>
        refine Or.inl ⟨?_, e, rfl⟩
        intro admissible
        obtain ⟨s', tree, ok⟩ := (exists_finalize_iff closed).mpr (admissible closed)
        rw [finalized] at ok
        cases ok

/-! ## Runs -/

/-- The operations of a run that have not failed. -/
def passed (ops : List Operation) (answers : List (Except SearchError (Option SearchTree))) :
    List Operation :=
  ((ops.zip answers).filter fun (_, answer) => answer.isOk).map Prod.fst

/-- The predicates that a run has added, each with its operator. -/
def added (ops : List Operation) (answers : List (Except SearchError (Option SearchTree))) :
    List (Entry Value) :=
  (passed ops answers).filterMap (·.addition?)

/-- The options that a run has set, each with its value. -/
def assigned (ops : List Operation) (answers : List (Except SearchError (Option SearchTree))) :
    List (SearchOption × Value) :=
  (passed ops answers).filterMap (·.setting?)

theorem passed_cons (op : Operation) (ops : List Operation)
    (answer : Except SearchError (Option SearchTree))
    (answers : List (Except SearchError (Option SearchTree))) :
    passed (op :: ops) (answer :: answers) =
      if answer.isOk then op :: passed ops answers else passed ops answers := by
  rw [passed, List.zip_cons_cons, List.filter_cons]
  cases answer with
  | ok tree => rfl
  | error e => rfl

/-- What a run has made of a search. -/
structure Collected (s : Search) (ops : List Operation)
    (answers : List (Except SearchError (Option SearchTree))) (s' : Search) : Prop where
  binding : s'.binding = s.binding
  entries : s'.entries = s.entries ++ added ops answers
  options : ∀ o, s'.options.get? o =
    ((assigned ops answers).reverse.lookup o).or (s.options.get? o)
  closed : s'.closed = none ↔
    s.closed = none ∧ ∀ op ∈ passed ops answers, op.isFinalize = false

theorem collected_run (s : Search) (ops : List Operation) :
    s.Collected ops (s.run ops).2 (s.run ops).1 := by
  induction ops generalizing s with
  | nil => exact ⟨rfl, (List.append_nil _).symm, fun _ => rfl, by simp [run, passed]⟩
  | cons op rest ih =>
    have later := ih (s.apply op).1
    have answers : (s.run (op :: rest)).2 = (s.apply op).2 :: ((s.apply op).1.run rest).2 := rfl
    have final : (s.run (op :: rest)).1 = ((s.apply op).1.run rest).1 := rfl
    rw [answers, final]
    rcases apply_cases s op with ⟨-, e, failed⟩ | ⟨-, ⟨tree, ok⟩, changes⟩
    · rw [failed] at later ⊢
      have skipped : passed (op :: rest) (.error e :: (s.run rest).2) =
          passed rest (s.run rest).2 := passed_cons op rest _ _
      refine ⟨later.binding, ?_, ?_, ?_⟩
      · rw [added, skipped]
        exact later.entries
      · rw [assigned, skipped]
        exact later.options
      · rw [skipped]
        exact later.closed
    · rw [ok]
      have kept (answers : List (Except SearchError (Option SearchTree))) :
          passed (op :: rest) (.ok tree :: answers) = op :: passed rest answers :=
        passed_cons op rest _ _
      refine ⟨later.binding.trans changes.binding, ?_, ?_, ?_⟩
      · rw [later.entries, changes.entries, List.append_assoc, added, added, kept,
          List.filterMap_cons]
        cases op.addition? <;> rfl
      · intro o
        rw [later.options, changes.options, ← Option.or_assoc, ← List.lookup_append, assigned,
          assigned, kept, List.filterMap_cons]
        cases op.setting? with
        | none => simp
        | some row => simp
      · rw [later.closed, changes.closed, kept, List.forall_mem_cons, and_assoc]

/-- A search that is closed stays as it is. Nothing can be added or set, and finalizing it gives the
tree it has. -/
theorem apply_closed {tree : Option SearchTree} (closed : s.closed = some tree) :
    (∀ op, (s.apply op).1 = s) ∧
    (∀ node how, s.apply (.add node how) = (s, .error (.reopened s.binding.aliasName))) ∧
    (∀ name value, s.apply (.setOption name value) =
      (s, .error (.reopened s.binding.aliasName))) ∧
    ∀ strategy, s.apply (.finalize strategy) = (s, .ok tree) := by
  have refused : s.requireOpen = .error (.reopened s.binding.aliasName) := by
    rw [requireOpen, isFinalized, closed]
    rfl
  have added (node how : Value) :
      s.apply (.add node how) = (s, .error (.reopened s.binding.aliasName)) := by
    have failed : s.add node how = .error (.reopened s.binding.aliasName) := by
      unfold Search.add
      rw [refused]
      rfl
    rw [apply_add, failed]
  have set (name value : Value) :
      s.apply (.setOption name value) = (s, .error (.reopened s.binding.aliasName)) := by
    have failed : s.setOption name value = .error (.reopened s.binding.aliasName) := by
      unfold Search.setOption
      rw [refused]
      rfl
    rw [apply_setOption, failed]
  have finalized (strategy : Value) : s.apply (.finalize strategy) = (s, .ok tree) := by
    rw [apply_finalize, finalize_closed closed]
  refine ⟨?_, added, set, finalized⟩
  intro op
  cases op with
  | add node how => rw [added]
  | setOption name value => rw [set]
  | validate =>
    rw [apply_validate]
    cases s.validate <;> rfl
  | finalize strategy => rw [finalized]

theorem run_closed {tree : Option SearchTree} (closed : s.closed = some tree)
    (ops : List Operation) : (s.run ops).1 = s := by
  induction ops with
  | nil => rfl
  | cons op rest ih =>
    have stays := (apply_closed closed).1 op
    rw [run]
    simp only [stays]
    exact ih

/-- Take any run of operations on a new search. It holds the predicates that were successfully
added, with their operators and in their order, and of each option the value that was successfully
set last; and it is open as long as it has not been finalized. An operation succeeds exactly if it
is admissible, and one that fails changes nothing. The first success in finalizing gives the tree:
the predicates folded by the rule that was asked for, with the options set by then, or no tree if
there are no predicates. Whatever follows, the search stays as it is, nothing can be added or set,
and finalizing by any rule, even one that is unknown, gives that same tree. -/
theorem search_collects_until_finalized (binding : Binding) {ops : List Operation} {s : Search}
    {answers : List (Except SearchError (Option SearchTree))}
    (hrun : (ofBinding binding).run ops = (s, answers)) :
    s.binding = binding ∧ s.entries = added ops answers ∧
    (∀ o, s.options.get? o = (assigned ops answers).reverse.lookup o) ∧
    (s.closed = none ↔ ∀ op ∈ passed ops answers, op.isFinalize = false) ∧
    (∀ op, (∃ tree, (s.apply op).2 = .ok tree) ↔ op.Admissible s) ∧
    (∀ op s' e, s.apply op = (s', .error e) → s' = s) ∧
    ∀ strategy s' tree, s.closed = none → s.apply (.finalize strategy) = (s', .ok tree) →
      s' = { s with closed := some tree } ∧
      ((s.entries = [] ∧ tree = none) ∨
        ∃ rule root, strategy = .text (FoldStrategy.name rule) ∧
          Entry.normalize rule s.entries = some root ∧ tree = some ⟨binding, root, s.options⟩) ∧
      ∀ later now answers', s'.run later = (now, answers') → now = s' ∧
        (∀ node how, now.apply (.add node how) = (now, .error (.reopened binding.aliasName))) ∧
        (∀ name value,
          now.apply (.setOption name value) = (now, .error (.reopened binding.aliasName))) ∧
        ∀ other, now.apply (.finalize other) = (now, .ok tree) := by
  obtain ⟨rfl, rfl⟩ := Prod.mk.inj hrun
  have collected := collected_run (ofBinding binding) ops
  generalize ((ofBinding binding).run ops).1 = s at *
  refine ⟨collected.binding, collected.entries, ?_, ?_, ?_, ?_, ?_⟩
  · intro o
    rw [collected.options]
    exact Option.or_none
  · rw [collected.closed]
    exact and_iff_right rfl
  · intro op
    rcases apply_cases s op with ⟨refused, e, failed⟩ | ⟨admissible, ok, -⟩
    · refine iff_of_false ?_ refused
      rintro ⟨tree, ok⟩
      rw [failed] at ok
      cases ok
    · exact iff_of_true ok admissible
  · intro op s' e failed
    rcases apply_cases s op with ⟨-, e', failed'⟩ | ⟨-, ⟨tree, ok⟩, -⟩
    · rw [failed'] at failed
      cases failed
      rfl
    · rw [failed] at ok
      cases ok
  · intro strategy s' tree opened applied
    obtain ⟨-, rfl, folded⟩ := (finalize_eq_ok_iff opened).mp (finalize_of_apply applied)
    rw [collected.binding] at folded
    refine ⟨rfl, folded, ?_⟩
    intro later now answers' hlater
    have stays := run_closed (s := { s with closed := some tree }) rfl later
    rw [hlater] at stays
    obtain rfl : now = { s with closed := some tree } := stays
    obtain ⟨-, unadded, unset, same⟩ := apply_closed (s := { s with closed := some tree }) rfl
    have named : s.binding.aliasName = binding.aliasName := congrArg _ collected.binding
    simp only [named] at unadded unset
    exact ⟨rfl, unadded, unset, same⟩

/-- The search of a relation with one field. -/
def oneField : Binding := ⟨"x", "a", ⟨"a", "i", ["f"], some "f"⟩⟩

/-- Two predicates are added and one option is set twice; four operations are refused. -/
def untidy : List Operation :=
  [.add (.predicate (.present "f")) (.text "or"), .add (.int 1) (.text "and"),
    .add (.predicate (.term "f" (.int 5))) (.text "xor"),
    .add (.predicate (.term "f" (.int 5))) (.text "and"),
    .setOption (.text "limit_rows") (.int 3), .setOption (.text "limit_rows") (.int 7),
    .setOption (.text "limit_rows") (.int (-1)), .finalize (.text "at_random")]

theorem untidy_search_is_collected :
    ∃ s answers s' tree, (ofBinding oneField).run untidy = (s, answers) ∧
      answers.map (·.isOk) = [true, false, false, true, true, true, false, false] ∧
      samePredicates (s.entries.map (·.node)) [.present "f", .term "f" (.int 5)] = true ∧
      s.entries = added untidy answers ∧
      (s.options.get? .limitRows).map (sameValue · (.int 7)) = some true ∧
      s.apply (.finalize (.text "left_to_right")) = (s', .ok (some tree)) ∧
      samePredicate tree.root (.boolean .must (.present "f") [.term "f" (.int 5)]) = true ∧
      (∀ op s'' e, s.apply op = (s'', .error e) → s'' = s) ∧
      ∀ other,
        (s'.run untidy).1.apply (.finalize other) = ((s'.run untidy).1, .ok (some tree)) := by
  have outcome : let run := (ofBinding oneField).run untidy
      run.2.map (·.isOk) = [true, false, false, true, true, true, false, false] ∧
      samePredicates (run.1.entries.map (·.node)) [.present "f", .term "f" (.int 5)] = true ∧
      (run.1.options.get? .limitRows).map (sameValue · (.int 7)) = some true ∧
      run.1.closed.isNone = true ∧
      ((run.1.apply (.finalize (.text "left_to_right"))).2.toOption.map fun tree =>
        tree.map fun tree =>
          samePredicate tree.root (.boolean .must (.present "f") [.term "f" (.int 5)])) =
        some (some true) := by
    decide +kernel
  cases hrun : (ofBinding oneField).run untidy with
  | mk s answers =>
    rw [hrun] at outcome
    obtain ⟨answered, nodes, limited, opened, folded⟩ := outcome
    cases hfinalize : s.apply (.finalize (.text "left_to_right")) with
    | mk s' result =>
      rw [hfinalize] at folded
      cases result with
      | error e => cases folded
      | ok result =>
        cases result with
        | none => cases folded
        | some tree =>
          obtain ⟨-, collected, -, -, -, unchanged, first⟩ :=
            search_collects_until_finalized oneField hrun
          obtain ⟨-, -, kept⟩ := first _ s' (some tree) (Option.isNone_iff_eq_none.mp opened)
            hfinalize
          obtain ⟨-, -, -, same⟩ := kept untidy _ _ rfl
          exact ⟨s, answers, s', tree, rfl, answered, nodes, collected, limited, hfinalize,
            Option.some.inj (Option.some.inj folded), unchanged, same⟩

end Search

end SearchSql
