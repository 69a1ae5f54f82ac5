import SearchSql.Proofs.Call.Emitter
import SearchSql.Proofs.Statement.Calls
import SearchSql.Proofs.Statement.Numbering
import SearchSql.Statement.Session

/-!
# Closed statements

Whether builds share an emitter or each has one of its own makes no difference to a session
(`run_unshared`). Once a statement is finalized it is closed: whatever follows, its trees stay,
nothing can be added to a search, and every answer is that of a statement which has the same trees
and the current clauses, and nothing else, by emitters that have written nothing
(`closed_statement_stays`).
-/

namespace SearchSql

namespace Statement

variable {s : Statement}

/-! ## Builds by a given emitter -/

theorem emitAllBy_eq (e : Emitter) (first : Int) (trees : List SearchTree) :
    (emitAllBy e first trees).1.settings = e.settings ∧
      (emitAllBy e first trees).2 = emitAll e.settings first trees := by
  induction trees generalizing e first with
  | nil => exact ⟨rfl, rfl⟩
  | cons tree rest ih =>
    have settings := e.settings_emit tree first
    have written := e.snd_emit tree first
    rw [emitAllBy, emitAll, ← written]
    cases hemit : e.emit tree first with
    | mk e' result =>
      rw [hemit] at settings
      cases result with
      | error x => exact ⟨settings, rfl⟩
      | ok expression =>
        obtain ⟨kept, later⟩ := ih e' (first + expression.parameters.length)
        rw [settings] at kept later
        refine ⟨kept, ?_⟩
        simp only [later, bind, Except.bind]
        cases emitAll e.settings (first + expression.parameters.length) rest <;> rfl

theorem expressionsBy_eq (s : Statement) (e : Emitter) :
    ∃ e', e'.settings = e.settings ∧
      s.expressionsBy e = ((s.expressions e.settings).1, e', (s.expressions e.settings).2) := by
  unfold expressionsBy expressions
  cases s.finalize with
  | mk s' result =>
    cases result with
    | error x => exact ⟨e, rfl, rfl⟩
    | ok trees =>
      obtain ⟨kept, written⟩ := emitAllBy_eq e 1 trees
      exact ⟨(emitAllBy e 1 trees).1, kept, by simp only [written]⟩

theorem buildBy_eq (s : Statement) (e : Emitter) :
    ∃ e', e'.settings = e.settings ∧
      s.buildBy e = ((s.build e.settings).1, e', (s.build e.settings).2) := by
  unfold buildBy build
  by_cases none : s.refs.isEmpty = true
  · rw [if_pos none, if_pos none]
    exact ⟨e, rfl, rfl⟩
  · rw [if_neg none, if_neg none]
    obtain ⟨e', kept, written⟩ := s.expressionsBy_eq e
    rw [written]
    cases s.expressions e.settings with
    | mk s' result => cases result <;> exact ⟨e', kept, rfl⟩

end Statement

namespace Session

/-- What is set for each of the emitters. -/
def settings (s : Session) (i : ℕ) : Settings := (s.emitters i).settings

/-- The operation with an emitter of its own in place of the shared one. -/
def Operation.unshared (settings : ℕ → Settings) : Operation → Statement.Operation
  | .alone op => op
  | .expressions i => .expressions (settings i)
  | .build i => .build (settings i)

variable {s : Session}

theorem settings_put (statement : Statement) {i : ℕ} {e : Emitter}
    (kept : e.settings = (s.emitters i).settings) :
    (s.put statement i e).settings = s.settings := by
  funext j
  by_cases same : j = i
  · subst same
    simpa [settings, put] using kept
  · simp [settings, put, same]

/-- One step: the emitter that is shared does what a new one does, and keeps its settings. -/
theorem apply_unshared (s : Session) (op : Operation) :
    (s.apply op).1.settings = s.settings ∧
      (s.apply op).1.statement = (s.statement.apply (op.unshared s.settings)).1 ∧
      (s.apply op).2 = (s.statement.apply (op.unshared s.settings)).2 := by
  cases op with
  | alone op => exact ⟨rfl, rfl, rfl⟩
  | expressions i =>
    obtain ⟨e, kept, written⟩ := s.statement.expressionsBy_eq (s.emitters i)
    rw [apply, written]
    exact ⟨settings_put _ kept, rfl, rfl⟩
  | build i =>
    obtain ⟨e, kept, written⟩ := s.statement.buildBy_eq (s.emitters i)
    rw [apply, written]
    exact ⟨settings_put _ kept, rfl, rfl⟩

/-- A whole run: it makes no difference that emitters are shared. -/
theorem run_unshared (s : Session) (ops : List Operation) :
    (s.run ops).1.settings = s.settings ∧
      (s.run ops).1.statement = (s.statement.run (ops.map (·.unshared s.settings))).1 ∧
      (s.run ops).2 = (s.statement.run (ops.map (·.unshared s.settings))).2 := by
  induction ops generalizing s with
  | nil => exact ⟨rfl, rfl, rfl⟩
  | cons op rest ih =>
    obtain ⟨settings, statement, answer⟩ := s.apply_unshared op
    obtain ⟨laterSettings, laterStatement, answers⟩ := ih (s.apply op).1
    rw [settings, statement] at laterStatement answers
    refine ⟨laterSettings.trans settings, laterStatement, ?_⟩
    rw [run, List.map_cons, Statement.run]
    exact congrArg₂ List.cons answer answers

end Session

namespace Statement

variable {s : Statement} {trees : List SearchTree}

/-! ## Closed statements -/

/-- A statement with these clauses and these trees that has never had a search. -/
def withTrees (clauses : Statement) (trees : List SearchTree) : Statement :=
  { clauses.frame with trees := some trees }

theorem finalize_closed (closed : s.trees = some trees) : s.finalize = (s, .ok trees) := by
  rw [finalize, closed]

theorem apply_finalize_closed (closed : s.trees = some trees) :
    s.apply .finalize = (s, .ok (.trees trees)) := by
  rw [apply, finalize_closed closed]
  rfl

theorem apply_searching_closed (closed : s.trees = some trees) {op : Operation}
    {aliasName : String} (named : op.alias? = some aliasName) :
    s.apply op = (s, .error (.reopened aliasName)) := by
  have refused := beginSearch_closed closed aliasName
  rcases apply_searching named s with ⟨e, hbegin, applied⟩ | ⟨t, search, hbegin, -⟩
  · rw [refused] at hbegin
    cases hbegin
    exact applied
  · rw [refused] at hbegin
    cases hbegin

theorem run_closed (closed : s.trees = some trees) (ops : List Operation) :
    (s.run ops).1.trees = some trees ∧ (s.run ops).1.searches = s.searches := by
  induction ops generalizing s with
  | nil => exact ⟨closed, rfl⟩
  | cons op rest ih =>
    obtain ⟨stays, searches⟩ := apply_closed closed op
    obtain ⟨later, same⟩ := ih stays
    exact ⟨later, same.trans searches⟩

/-- Statements that agree in their frame, their bindings, their trees and their searches are the
same. -/
theorem eq_of_frame {s t : Statement} (frames : s.frame = t.frame)
    (bindings : s.bindings = t.bindings) (trees : s.trees = t.trees)
    (searches : s.searches = t.searches) : s = t := by
  have rebuilt : { s.frame with bindings := s.bindings, searches := s.searches, trees := s.trees } =
      { t.frame with bindings := t.bindings, searches := t.searches, trees := t.trees } := by
    rw [frames, bindings, trees, searches]
  exact rebuilt

/-- Only the clauses of a closed statement can still be changed. -/
theorem fst_apply_closed (closed : s.trees = some trees) {op : Operation}
    (unframed : op.isFraming = false) : (s.apply op).1 = s := by
  obtain ⟨stays, searches⟩ := apply_closed closed op
  refine eq_of_frame ?_ (bindings_closed closed op) (stays.trans closed.symm) searches
  rw [frame_apply, unframed]
  rfl

theorem fst_run_closed (closed : s.trees = some trees) {ops : List Operation}
    (unframed : ∀ op ∈ ops, op.isFraming = false) : (s.run ops).1 = s := by
  induction ops with
  | nil => rfl
  | cons op rest ih =>
    obtain ⟨first, later⟩ := List.forall_mem_cons.mp unframed
    rw [run]
    simp only [fst_apply_closed closed first]
    exact ih later

/-- A closed statement answers as its clauses and its trees alone tell. -/
theorem snd_apply_closed (closed : s.trees = some trees) (op : Operation) :
    (s.apply op).2 = ((s.withTrees trees).apply op).2 := by
  have closed' : (s.withTrees trees).trees = some trees := rfl
  have listed (settings : Settings) :
      (s.expressions settings).2 = ((s.withTrees trees).expressions settings).2 := by
    rw [snd_expressions, snd_expressions, finalize_closed closed, finalize_closed closed']
  cases framing : op.isFraming with
  | true => exact (answer_framing framing s).trans (answer_framing framing (s.withTrees trees)).symm
  | false =>
    cases named : op.alias? with
    | some aliasName =>
      rw [apply_searching_closed closed named, apply_searching_closed closed' named]
    | none =>
      cases op with
      | finalize => rw [apply_finalize_closed closed, apply_finalize_closed closed']
      | expressions settings => exact congrArg (Except.map Answer.expressions) (listed settings)
      | build settings =>
        have built : (s.build settings).2 = ((s.withTrees trees).build settings).2 := by
          rw [snd_build, snd_build, listed settings]
          rfl
        exact congrArg (Except.map fun b => Answer.built b.1 b.2) built
      | add => cases named
      | setOption => cases named
      | _ => cases framing

end Statement

namespace Session

variable {s : Session}

/-- An operation on the clauses of the statement. -/
def Operation.isFraming : Operation → Bool
  | .alone op => op.isFraming
  | _ => false

theorem Operation.isFraming_unshared (op : Operation) (settings : ℕ → Settings) :
    (op.unshared settings).isFraming = op.isFraming := by
  cases op <;> rfl

/-- A session with these clauses and these trees, whose emitters have written nothing yet. -/
def fresh (clauses : Statement) (trees : List SearchTree) (settings : ℕ → Settings) : Session :=
  ⟨clauses.withTrees trees, fun i => .new (settings i)⟩

/-- A later step leaves a closed statement as it is, unless it is on the clauses. -/
theorem statement_apply_closed {trees : List SearchTree} (closed : s.statement.trees = some trees)
    {op : Operation} (unframed : op.isFraming = false) : (s.apply op).1.statement = s.statement := by
  rw [(s.apply_unshared op).2.1]
  refine Statement.fst_apply_closed closed ?_
  rwa [Operation.isFraming_unshared]

theorem statement_run_closed {trees : List SearchTree} (closed : s.statement.trees = some trees)
    {ops : List Operation} (unframed : ∀ op ∈ ops, op.isFraming = false) :
    (s.run ops).1.statement = s.statement := by
  rw [(s.run_unshared ops).2.1]
  refine Statement.fst_run_closed closed fun op hop => ?_
  obtain ⟨shared, hshared, rfl⟩ := List.mem_map.mp hop
  rw [Operation.isFraming_unshared]
  exact unframed shared hshared

/-- What a closed session answers does not depend on what its emitters hold. -/
theorem answer_closed {trees : List SearchTree} (closed : s.statement.trees = some trees)
    (op : Operation) : (s.apply op).2 = ((fresh s.statement trees s.settings).apply op).2 := by
  rw [(s.apply_unshared op).2.2, (apply_unshared _ op).2.2]
  exact Statement.snd_apply_closed closed _

end Session

namespace Statement

/-- Once a statement has been finalized, take any later run, in which clauses may change and builds
by all kinds of emitters may succeed or fail, several of them by a shared one, in whatever state
that was left. After it the statement finalizes to the same trees in the same order. An operation
on a search is refused, whatever its arguments, and changes nothing, nor has anything changed in the
searches. Every answer is that of a session which has the current clauses and these trees alone and
whose emitters are new; for a build it is what a new emitter with the same settings makes of them.
An operation other than on the clauses leaves the statement as it is, so answers repeat until the
clauses change. -/
theorem closed_statement_stays {s s' : Statement} {trees : List SearchTree}
    (finalized : s.finalize = (s', .ok trees)) {emitters : ℕ → Emitter}
    {later : List Session.Operation} {now : Session} {answers : List (Except StatementError Answer)}
    (hrun : (Session.mk s' emitters).run later = (now, answers)) :
    now.apply (.alone .finalize) = (now, .ok (.trees trees)) ∧
    (∀ op aliasName, op.alias? = some aliasName →
      now.apply (.alone op) = (now, .error (.reopened aliasName))) ∧
    now.statement.searches = s'.searches ∧
    (∀ op, (now.apply op).2 =
      ((Session.fresh now.statement trees fun i => (emitters i).settings).apply op).2) ∧
    (∀ settings, (now.apply (.alone (.build settings))).2 =
      ((now.statement.withTrees trees).buildBy (.new settings)).2.2.map fun b => .built b.1 b.2) ∧
    (∀ op, op.isFraming = false → (now.apply op).1.statement = now.statement) ∧
    ∀ between op, (∀ o ∈ between, o.isFraming = false) →
      ((now.run between).1.apply op).2 = (now.apply op).2 := by
  have closed' : s'.trees = some trees := trees_of_finalize finalized
  obtain ⟨settings, statement, -⟩ := Session.run_unshared ⟨s', emitters⟩ later
  simp only [hrun] at settings statement
  obtain ⟨closed, searches⟩ :=
    run_closed closed' (later.map (·.unshared (Session.mk s' emitters).settings))
  rw [← statement] at closed searches
  refine ⟨?_, ?_, searches, ?_, ?_, ?_, ?_⟩
  · simp only [Session.apply, apply_finalize_closed closed]
  · intro op aliasName named
    simp only [Session.apply, apply_searching_closed closed named]
  · intro op
    rw [Session.answer_closed closed op, settings]
    rfl
  · intro settings
    obtain ⟨e, -, written⟩ := (now.statement.withTrees trees).buildBy_eq (.new settings)
    rw [written]
    exact snd_apply_closed closed (.build settings)
  · intro op unframed
    exact Session.statement_apply_closed closed unframed
  · intro between op unframed
    have unchanged := Session.statement_run_closed closed unframed
    have closedThen : (now.run between).1.statement.trees = some trees := by rw [unchanged, closed]
    rw [Session.answer_closed closedThen, Session.answer_closed closed, unchanged,
      (now.run_unshared between).1]

/-- The text of a statement, if that is the answer. -/
def Answer.sql? : Answer → Option String
  | .built sql _ => some sql
  | _ => none

/-- The first emitter has room for one of two searches, but not for the other. -/
def cramped (i : ℕ) : Emitter := .new ⟨.shorthand, true, 100, if i = 0 then 70 else 50000⟩

/-- A build fails in the second search, then a condition and a predicate are tried. -/
def halfWay : List Session.Operation :=
  [.build 0, .alone (.addCondition "a.x = b.x"), .alone addTerm]

theorem build_repeats_after_failing :
    ∃ s' trees now answers,
      ((new twoRelations .leftToRight).run twoSearches).1.finalize = (s', .ok trees) ∧
      (Session.mk s' cramped).run halfWay = (now, answers) ∧
      answers.map (·.toOption.isSome) = [false, true, false] ∧
      (now.emitters 0).text ≠ "" ∧
      now.apply (.alone .finalize) = (now, .ok (.trees trees)) ∧
      now.apply (.alone limitRows) = (now, .error (.reopened "b")) ∧
      ((now.run [.build 1, .build 0]).1.apply (.build 1)).2 = (now.apply (.build 1)).2 ∧
      (now.apply (.build 1)).2.toOption.bind Answer.sql? =
        some ("SELECT * FROM i.search(query => fuzzy_term(field=>'f', value=>$3, " ++
          "transpose_cost_one=>true)) AS a CROSS JOIN j.search(query => term(field=>'g', " ++
          "value=>$1), limit_rows => $2) AS b WHERE a.x = b.x") := by
  have succeeds :
      ((new twoRelations .leftToRight).run twoSearches).1.finalize.2.toOption.isSome = true := by
    decide +kernel
  have outcome : let run := (Session.mk
        ((new twoRelations .leftToRight).run twoSearches).1.finalize.1 cramped).run halfWay
      run.2.map (·.toOption.isSome) = [false, true, false] ∧ (run.1.emitters 0).text ≠ "" ∧
      (run.1.apply (.build 1)).2.toOption.bind Answer.sql? =
        some ("SELECT * FROM i.search(query => fuzzy_term(field=>'f', value=>$3, " ++
          "transpose_cost_one=>true)) AS a CROSS JOIN j.search(query => term(field=>'g', " ++
          "value=>$1), limit_rows => $2) AS b WHERE a.x = b.x") := by
    decide +kernel
  cases h : ((new twoRelations .leftToRight).run twoSearches).1.finalize with
  | mk s' result =>
    rw [h] at succeeds outcome
    cases result with
    | error e => cases succeeds
    | ok trees =>
      obtain ⟨answered, written, sql⟩ := outcome
      obtain ⟨stays, refused, -, -, -, -, repeats⟩ :=
        closed_statement_stays h (rfl : (Session.mk s' cramped).run halfWay = _)
      exact ⟨s', trees, _, _, rfl, rfl, answered, written, stays, refused limitRows "b" rfl,
        repeats [.build 1, .build 0] (.build 1) (by decide), sql⟩

end Statement

end SearchSql
