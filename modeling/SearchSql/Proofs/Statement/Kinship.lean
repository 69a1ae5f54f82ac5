import SearchSql.Proofs.Statement.Calls
import SearchSql.Proofs.Statement.Closing

/-!
# Statements that differ in the order of their searches

Two statements may have begun their searches in another order, and one of them may have begun
searches that it left empty. No operation can tell them apart but by the order in which they list
their searches, and by what depends on it: which error comes first, and how the placeholders are
numbered (`Kin.run`).
-/

namespace SearchSql

namespace Statement

variable {s t : Statement}

/-- Statements that differ at most in the order of their searches, and in searches that are begun
and empty. -/
inductive Kin (s t : Statement) : Prop where
  | opened (h : Agree s t) : Kin s t
  | closed {trees trees' : List SearchTree} (frame : s.frame = t.frame)
      (left : s.trees = some trees) (right : t.trees = some trees')
      (same : SameTrees trees trees') : Kin s t

theorem Agree.sameTrees (h : Agree s t) : SameTrees s.collected t.collected := by
  have nodup {s : Statement} (aligned : s.Aligned) :
      (s.collected.map (·.binding.aliasName)).Nodup := by
    rw [aligned.aliases_collected]
    exact aligned.nodup.filter _
  exact ⟨h.find?_collected, nodup h.left, nodup h.right⟩

namespace Kin

theorem frame (h : Kin s t) : s.frame = t.frame := by
  cases h with
  | opened h => exact h.frame
  | closed frame => exact frame

theorem finalize_cases (h : Kin s t) :
    (∃ e e', s.finalize = (s, .error e) ∧ t.finalize = (t, .error e')) ∨
    ∃ trees trees', s.finalize.2 = .ok trees ∧ t.finalize.2 = .ok trees' ∧
      s.finalize.1.trees = some trees ∧ t.finalize.1.trees = some trees' ∧
      SameTrees trees trees' := by
  cases h with
  | opened h =>
    rcases h.left.finalize_cases with ⟨valid, hs⟩ | ⟨invalid, e, hs⟩
    · rcases h.right.finalize_cases with ⟨-, ht⟩ | ⟨invalid, -⟩
      · rw [hs, ht]
        exact Or.inr ⟨_, _, rfl, rfl, rfl, rfl, h.sameTrees⟩
      · exact absurd (h.valid.mp valid) invalid
    · rcases h.right.finalize_cases with ⟨valid, -⟩ | ⟨-, e', ht⟩
      · exact absurd (h.valid.mpr valid) invalid
      · exact Or.inl ⟨e, e', hs, ht⟩
  | @closed trees trees' _ left right same =>
    have hs : s.finalize = (s, .ok trees) := by rw [Statement.finalize, left]
    have ht : t.finalize = (t, .ok trees') := by rw [Statement.finalize, right]
    rw [hs, ht]
    exact Or.inr ⟨trees, trees', rfl, rfl, left, right, same⟩

theorem finalize (h : Kin s t) : Kin s.finalize.1 t.finalize.1 := by
  have frames : s.finalize.1.frame = t.finalize.1.frame := by
    rw [frame_finalize, frame_finalize, h.frame]
  rcases h.finalize_cases with ⟨e, e', hs, ht⟩ | ⟨trees, trees', -, -, left, right, same⟩
  · rw [hs, ht]
    exact h
  · exact .closed frames left right same

end Kin

/-! ## Their answers -/

/-- Answers that differ in the order of the searches, and in what the relation of their calls
leaves open. -/
inductive Answer.Alike (R : Expression → Expression → Prop) : Answer → Answer → Prop where
  | trees {trees trees' : List SearchTree} (same : SameTrees trees trees') :
      Alike R (.trees trees) (.trees trees')
  | expressions {es es' : List Expression} (alike : CallsAlike R es es') :
      Alike R (.expressions es) (.expressions es')
  | built (s : Statement) {es es' : List Expression} (alike : CallsAlike R es es') :
      Alike R (.built (s.render es) (es.flatMap (·.parameters)))
        (.built (s.render es') (es'.flatMap (·.parameters)))

/-- What the answers to one operation are expected to have in common. Operations that do not
finalize the statement are answered the same, be it with the same error. The others succeed on both
sides or on none, with the same trees, calls and text; only where placeholders are numbered, and
one side may be too long, it is what both give that is the same but for the numbers. -/
def Operation.Tallies (op : Operation) (a a' : Except StatementError Answer) : Prop :=
  match op with
  | .finalize => Option.Rel (Answer.Alike Eq) a.toOption a'.toOption
  | .expressions settings =>
    if settings.parameterize = true then
      ∀ x x', a = .ok x → a' = .ok x' → Answer.Alike Renumbered x x'
    else Option.Rel (Answer.Alike Eq) a.toOption a'.toOption
  | .build settings =>
    if settings.parameterize = true then
      ∀ x x', a = .ok x → a' = .ok x' → Answer.Alike Renumbered x x'
    else a.toOption = a'.toOption
  | _ => a = a'

theorem Operation.tallies_of_eq {op : Operation} {a a' : Except StatementError Answer}
    (kind : op.isFraming = true ∨ op.alias?.isSome = true) (same : a = a') : op.Tallies a a' := by
  cases op with
  | finalize => rcases kind with kind | kind <;> cases kind
  | expressions => rcases kind with kind | kind <;> cases kind
  | build => rcases kind with kind | kind <;> cases kind
  | _ => exact same

/-! ### The search of an alias -/

theorem Aligned.beginSearch_bound (h : s.Aligned) {aliasName : String} {binding : Binding}
    (hbinding : s.binding? aliasName = some binding) :
    ∃ t, s.beginSearch aliasName =
      .ok (t, (Search.ofBinding binding).fill (s.content aliasName)) := by
  cases found : s.search? aliasName with
  | some search =>
    obtain ⟨other, hother, hsearch⟩ := h.eq_fill found
    cases hbinding.symm.trans hother
    have unfinalized : ¬ s.isFinalized = true := by
      rw [isFinalized, h.trees]
      exact Bool.false_ne_true
    refine ⟨s, ?_⟩
    rw [Statement.beginSearch, if_neg unfinalized]
    simp only [found, ← hsearch]
  | none =>
    refine ⟨s.withEmpty binding, ?_⟩
    rw [beginSearch_new h.bindings h.trees found hbinding, content, found]
    rfl

theorem Aligned.beginSearch_unbound (h : s.Aligned) {aliasName : String}
    (hbinding : s.binding? aliasName = none) :
    ∃ e, s.beginSearch aliasName = .error e ∧ s.frame.beginSearch aliasName = .error e := by
  have unfinalized : ¬ s.isFinalized = true := by
    rw [isFinalized, h.trees]
    exact Bool.false_ne_true
  have new : s.search? aliasName = none := by
    cases found : s.search? aliasName with
    | none => rfl
    | some search =>
      obtain ⟨other, hother, -⟩ := h.eq_fill found
      cases hbinding.symm.trans hother
  have framed : ¬ s.frame.isFinalized = true := Bool.false_ne_true
  have empty : s.frame.BindsSearches := rfl
  have new' : s.frame.search? aliasName = none := rfl
  rw [Statement.beginSearch, Statement.beginSearch, if_neg unfinalized, if_neg framed]
  cases href : s.ref? aliasName with
  | none =>
    have href' : s.frame.ref? aliasName = none := href
    simp only [new, href']
    exact ⟨_, rfl, rfl⟩
  | some ref =>
    have href' : s.frame.ref? aliasName = some ref := href
    cases hb : Binding.ofRegistry s.registry aliasName ref.relation with
    | error e =>
      have hb' : Binding.ofRegistry s.frame.registry aliasName ref.relation = .error e := hb
      simp only [new, new', href', h.bindings.bind_new new, empty.bind_new new', hb, hb']
      exact ⟨_, rfl, rfl⟩
    | ok binding =>
      rw [binding?, href, Option.bind_some, hb] at hbinding
      cases hbinding

namespace Agree

/-- The same search is found or begun, or it is the same that keeps it from being begun. -/
theorem beginSearch (h : Agree s t) (aliasName : String) :
    (∃ e, s.beginSearch aliasName = .error e ∧ t.beginSearch aliasName = .error e) ∨
    ∃ s' t' search, s.beginSearch aliasName = .ok (s', search) ∧
      t.beginSearch aliasName = .ok (t', search) := by
  cases hbinding : s.binding? aliasName with
  | none =>
    obtain ⟨e, hs, hframe⟩ := h.left.beginSearch_unbound hbinding
    obtain ⟨e', ht, hframe'⟩ := h.right.beginSearch_unbound ((h.binding? _).symm.trans hbinding)
    rw [h.frame] at hframe
    cases hframe.symm.trans hframe'
    exact Or.inl ⟨e, hs, ht⟩
  | some binding =>
    obtain ⟨s', hs⟩ := h.left.beginSearch_bound hbinding
    obtain ⟨t', ht⟩ := h.right.beginSearch_bound ((h.binding? _).symm.trans hbinding)
    rw [← h.content] at ht
    exact Or.inr ⟨s', t', _, hs, ht⟩

theorem answer_searching (h : Agree s t) {op : Operation} {aliasName : String}
    (named : op.alias? = some aliasName) : (s.apply op).2 = (t.apply op).2 := by
  obtain ⟨update, applied, -⟩ := exists_update named
  rw [applied, applied, updateSearch, updateSearch]
  rcases h.beginSearch aliasName with ⟨e, hs, ht⟩ | ⟨s', t', search, hs, ht⟩
  · rw [hs, ht]
    rfl
  · rw [hs, ht]
    cases hu : update search <;> simp only [hu] <;> rfl

/-- Statements that agree do so after an operation that leaves both open, if it has succeeded on
both sides or on none. -/
theorem apply (h : Agree s t) {op : Operation} (stays : (s.apply op).1.trees = none)
    (stays' : (t.apply op).1.trees = none)
    (same : ∀ aliasName, op.alias? = some aliasName → (s.apply op).2 = (t.apply op).2) :
    Agree (s.apply op).1 (t.apply op).1 := by
  have change := h.left.changes_apply stays
  have change' := h.right.changes_apply stays'
  refine ⟨change.aligned, change'.aligned, ?_, ?_⟩
  · rw [frame_apply, frame_apply, h.frame]
  · intro aliasName
    rw [change.content, change'.content, h.content]
    cases named : op.alias? with
    | none => rfl
    | some other => rw [same other named]

end Agree

namespace Kin

theorem apply_searching (h : Kin s t) {op : Operation} {aliasName : String}
    (named : op.alias? = some aliasName) :
    (s.apply op).2 = (t.apply op).2 ∧ Kin (s.apply op).1 (t.apply op).1 := by
  cases h with
  | opened h =>
    have same := h.answer_searching named
    refine ⟨same, .opened (h.apply ?_ ?_ fun _ _ => same)⟩
    · exact (h.left.changes_searching named).aligned.trees
    · exact (h.right.changes_searching named).aligned.trees
  | closed frame left right same =>
    obtain ⟨update, applied, -⟩ := exists_update named
    rw [applied, applied, updateSearch, updateSearch, beginSearch_closed left,
      beginSearch_closed right]
    exact ⟨rfl, .closed frame left right same⟩

theorem apply_framing (h : Kin s t) {op : Operation} (framing : op.isFraming = true) :
    (s.apply op).2 = (t.apply op).2 ∧ Kin (s.apply op).1 (t.apply op).1 := by
  have foreign : op.alias? = none := by cases op <;> first | rfl | cases framing
  have left := Statement.apply_framing framing s
  have right := Statement.apply_framing framing t
  refine ⟨?_, ?_⟩
  · rw [answer_framing framing s, answer_framing framing t, h.frame]
  · cases h with
    | opened h =>
      refine .opened (h.apply (left.1.trans h.left.trees) (right.1.trans h.right.trees) ?_)
      intro aliasName named
      cases foreign.symm.trans named
    | closed frame hs ht same =>
      refine .closed ?_ (left.1.trans hs) (right.1.trans ht) same
      rw [frame_apply, frame_apply, frame]

end Kin

/-! ### Closing and building -/

namespace Kin

variable {settings : Settings}

theorem expressions_inline (h : Kin s t) (inline : settings.parameterize = false) :
    (∃ es es', (s.expressions settings).2 = .ok es ∧ (t.expressions settings).2 = .ok es' ∧
      CallsAlike Eq es es' ∧ es.flatMap (·.parameters) = es'.flatMap (·.parameters)) ∨
    ∃ e e', (s.expressions settings).2 = .error e ∧ (t.expressions settings).2 = .error e' := by
  rw [snd_expressions, snd_expressions]
  rcases h.finalize_cases with ⟨e, e', hs, ht⟩ | ⟨trees, trees', hs, ht, -, -, same⟩
  · rw [hs, ht]
    exact Or.inr ⟨e, e', rfl, rfl⟩
  · rw [hs, ht]
    rcases same.emitAll_inline inline with ⟨es, es', hes, hes', alike⟩ | ⟨e, e', he, he'⟩
    · refine Or.inl ⟨es, es', ?_, ?_, alike, ?_⟩
      · rw [Except.bind, hes]
        rfl
      · rw [Except.bind, hes']
        rfl
      · rw [parameters_inline inline hes, parameters_inline inline hes']
    · refine Or.inr ⟨.emission e, .emission e', ?_, ?_⟩
      · rw [Except.bind, he]
        rfl
      · rw [Except.bind, he']
        rfl

theorem expressions_numbered {es es' : List Expression} (h : Kin s t)
    (numbered : settings.parameterize = true)
    (names : ∀ trees, s.finalize.2 = .ok trees → ∀ tree ∈ trees, tree.HasPlainNames)
    (hs : (s.expressions settings).2 = .ok es) (ht : (t.expressions settings).2 = .ok es') :
    CallsAlike Renumbered es es' := by
  have emitted {s : Statement} {es : List Expression} {trees : List SearchTree}
      (hf : s.finalize.2 = .ok trees) (he : (s.expressions settings).2 = .ok es) :
      emitAll settings 1 trees = .ok es := by
    rw [snd_expressions, hf] at he
    exact Except.mapError_eq_ok.mp he
  rcases h.finalize_cases with ⟨e, e', hfs, -⟩ | ⟨trees, trees', hfs, hft, -, -, same⟩
  · rw [snd_expressions, hfs] at hs
    cases hs
  · exact same.emitAll_numbered numbered (names trees hfs) (emitted hfs hs) (emitted hft ht)

theorem tallies_finalize (h : Kin s t) :
    Operation.Tallies .finalize (s.apply .finalize).2 (t.apply .finalize).2 := by
  rw [apply, apply, answer, answer]
  rcases h.finalize_cases with ⟨e, e', hs, ht⟩ | ⟨trees, trees', hs, ht, -, -, same⟩
  · rw [hs, ht]
    exact .none
  · rw [hs, ht]
    exact .some (.trees same)

theorem tallies_expressions (h : Kin s t)
    (names : ∀ trees, s.finalize.2 = .ok trees → ∀ tree ∈ trees, tree.HasPlainNames) :
    Operation.Tallies (.expressions settings) (s.apply (.expressions settings)).2
      (t.apply (.expressions settings)).2 := by
  rw [apply, apply, answer, answer, Operation.Tallies]
  cases hp : settings.parameterize with
  | true =>
    rw [if_pos rfl]
    intro x x' hx hx'
    obtain ⟨es, hs, rfl⟩ := Except.map_eq_ok.mp hx
    obtain ⟨es', ht, rfl⟩ := Except.map_eq_ok.mp hx'
    exact .expressions (h.expressions_numbered hp names hs ht)
  | false =>
    rw [if_neg Bool.false_ne_true]
    rcases h.expressions_inline hp with ⟨es, es', hs, ht, alike, -⟩ | ⟨e, e', hs, ht⟩
    · rw [hs, ht]
      exact .some (.expressions alike)
    · rw [hs, ht]
      exact .none

theorem build_inline (h : Kin s t) (inline : settings.parameterize = false) :
    (s.build settings).2.toOption = (t.build settings).2.toOption := by
  have text {es es' : List Expression} (alike : CallsAlike Eq es es') :
      s.render es = t.render es' := by
    refine render_eq h.frame fun aliasName => ?_
    have rel := alike aliasName
    generalize es.find? (·.aliasName = aliasName) = call at rel ⊢
    generalize es'.find? (·.aliasName = aliasName) = call' at rel ⊢
    cases rel with
    | none => rfl
    | some same => rw [same]
  rw [snd_build, snd_build, ← refs_of_frame h.frame]
  by_cases none : s.refs.isEmpty = true
  · rw [if_pos none, if_pos none]
  rw [if_neg none, if_neg none]
  rcases h.expressions_inline inline with ⟨es, es', hs, ht, alike, parameters⟩ | ⟨e, e', hs, ht⟩
  · rw [hs, ht]
    simp only [Except.map, text alike, parameters]
  · rw [hs, ht]
    rfl

theorem tallies_build (h : Kin s t)
    (names : ∀ trees, s.finalize.2 = .ok trees → ∀ tree ∈ trees, tree.HasPlainNames) :
    Operation.Tallies (.build settings) (s.apply (.build settings)).2
      (t.apply (.build settings)).2 := by
  rw [apply, apply, answer, answer, Operation.Tallies]
  cases hp : settings.parameterize with
  | true =>
    rw [if_pos rfl]
    intro x x' hx hx'
    obtain ⟨built, hbuilt, rfl⟩ := Except.map_eq_ok.mp hx
    obtain ⟨es, hs, rfl⟩ := exists_expressions_of_build hbuilt
    obtain ⟨built', hbuilt', rfl⟩ := Except.map_eq_ok.mp hx'
    obtain ⟨es', ht, rfl⟩ := exists_expressions_of_build hbuilt'
    have text : t.render es' = s.render es' := render_eq h.frame.symm fun _ => rfl
    rw [text]
    exact .built s (h.expressions_numbered hp names hs ht)
  | false =>
    rw [if_neg Bool.false_ne_true]
    have same := h.build_inline hp
    generalize (s.build settings).2 = a at same ⊢
    generalize (t.build settings).2 = a' at same ⊢
    cases a with
    | error e => cases a' with
      | error e' => rfl
      | ok built' => cases same
    | ok built => cases a' with
      | error e' => cases same
      | ok built' => cases same; rfl

/-- Kin statements answer an operation alike, and stay kin. -/
theorem apply (h : Kin s t)
    (names : ∀ trees, s.finalize.2 = .ok trees → ∀ tree ∈ trees, tree.HasPlainNames)
    (op : Operation) :
    op.Tallies (s.apply op).2 (t.apply op).2 ∧ Kin (s.apply op).1 (t.apply op).1 := by
  have framed {op : Operation} (framing : op.isFraming = true) :
      op.Tallies (s.apply op).2 (t.apply op).2 ∧ Kin (s.apply op).1 (t.apply op).1 := by
    obtain ⟨same, kin⟩ := h.apply_framing framing
    exact ⟨Operation.tallies_of_eq (Or.inl framing) same, kin⟩
  have searching {op : Operation} {aliasName : String} (named : op.alias? = some aliasName) :
      op.Tallies (s.apply op).2 (t.apply op).2 ∧ Kin (s.apply op).1 (t.apply op).1 := by
    obtain ⟨same, kin⟩ := h.apply_searching named
    exact ⟨Operation.tallies_of_eq (Or.inr (by rw [named]; rfl)) same, kin⟩
  cases op with
  | selectFrom => exact framed rfl
  | join => exact framed rfl
  | addColumns => exact framed rfl
  | addCondition => exact framed rfl
  | addOrdering => exact framed rfl
  | add => exact searching rfl
  | setOption => exact searching rfl
  | finalize => exact ⟨h.tallies_finalize, h.finalize⟩
  | expressions settings =>
    refine ⟨h.tallies_expressions names, ?_⟩
    have left : (s.apply (.expressions settings)).1 = s.finalize.1 := fst_expressions s settings
    have right : (t.apply (.expressions settings)).1 = t.finalize.1 := fst_expressions t settings
    rw [left, right]
    exact h.finalize
  | build settings =>
    refine ⟨h.tallies_build names, ?_⟩
    have left : (s.apply (.build settings)).1 = _ := fst_build s settings
    have right : (t.apply (.build settings)).1 = _ := fst_build t settings
    rw [left, right, ← refs_of_frame h.frame]
    by_cases none : s.refs.isEmpty = true
    · rw [if_pos none, if_pos none]
      exact h
    · rw [if_neg none, if_neg none]
      exact h.finalize

end Kin

/-- The answers to a row of operations, one by one. -/
inductive Tally : List Operation → List (Except StatementError Answer) →
    List (Except StatementError Answer) → Prop where
  | nil : Tally [] [] []
  | cons {op : Operation} {ops : List Operation} {a a' : Except StatementError Answer}
      {answers answers' : List (Except StatementError Answer)} (one : op.Tallies a a')
      (rest : Tally ops answers answers') : Tally (op :: ops) (a :: answers) (a' :: answers')

theorem Kin.run {registry : Registry} {added : List (Predicate Value)} (h : Kin s t)
    (constructed : registry.Constructed) (sound : s.Invariant registry added)
    (ops : List Operation) : Tally ops (s.run ops).2 (t.run ops).2 := by
  induction ops generalizing s t added with
  | nil => exact .nil
  | cons op rest ih =>
    have names : ∀ trees, s.finalize.2 = .ok trees → ∀ tree ∈ trees, tree.HasPlainNames := by
      intro trees hf
      have finalized : s.finalize = (s.finalize.1, .ok trees) := Prod.ext rfl hf
      exact sound.hasPlainNames constructed finalized
    obtain ⟨one, kin⟩ := h.apply names op
    exact .cons one (ih kin (sound.preserve_apply op))

end Statement

end SearchSql
