import SearchSql.Proofs.Statement.Collecting
import SearchSql.Proofs.Statement.Numbering

/-!
# The calls of a statement

Each tree has its call, whatever the order in which they are emitted. Where the literals are in
their places the call is the same; where they are numbered, it is the same up to the numbers
(`SameTrees.emitAll_inline`, `SameTrees.emitAll_numbered`).
-/

namespace SearchSql

/-! ## One call -/

namespace SearchTree

variable {settings : Settings} {tree : SearchTree} {e : Expression}

theorem aliasName_of_emit {first : Int} (h : tree.emit settings first = .ok e) :
    e.aliasName = tree.binding.aliasName := by
  obtain ⟨t, -, rfl⟩ := exists_template_of_emit h
  rfl

/-- Nothing is numbered where the literals are in their places. -/
theorem emit_inline (inline : settings.parameterize = false) (first first' : Int) :
    tree.emit settings first = tree.emit settings first' := by
  have fill (draft : Draft) (argument : Option Argument) (literal : Literal) :
      draft.fill settings first argument literal = draft.fill settings first' argument literal := by
    simp only [Draft.fill, inline, Bool.false_and, Bool.false_eq_true, if_false]
  have play : Draft.play settings first = Draft.play settings first' := by
    funext draft step
    cases step with
    | slot v argument => simp only [Draft.play, fill]
    | text s => rfl
    | enter depth => rfl
    | unsupported typeName => rfl
  rw [emit, emit, Script.play, Script.play, play]

theorem parameters_of_emit_inline (inline : settings.parameterize = false) {first : Int}
    (h : tree.emit settings first = .ok e) : e.parameters = [] := by
  obtain ⟨t, -, rfl⟩ := exists_template_of_emit h
  simp only [filled, expression, Template.values, inline, Bool.false_eq_true, if_false]

end SearchTree

namespace Statement

/-! ## All calls -/

variable {settings : Settings} {first first' : Int} {trees trees' : List SearchTree}
  {es es' : List Expression}

theorem forall₂_of_emitAll (h : emitAll settings first trees = .ok es) :
    List.Forall₂ (fun tree e => ∃ first, tree.emit settings first = .ok e) trees es := by
  induction trees generalizing first es with
  | nil =>
    cases h
    exact .nil
  | cons tree rest ih =>
    obtain ⟨e, es', he, hrest, rfl⟩ := emitAll_cons h
    exact .cons ⟨first, he⟩ (ih hrest)

theorem rel_find? {α β : Type} {R : α → β → Prop} {p : α → Bool} {q : β → Bool} {xs : List α}
    {ys : List β} (h : List.Forall₂ R xs ys) (same : ∀ x y, R x y → p x = q y) :
    Option.Rel R (xs.find? p) (ys.find? q) := by
  induction h with
  | nil => exact .none
  | @cons x y xs ys hxy _ ih =>
    rw [List.find?_cons, List.find?_cons, ← same x y hxy]
    cases p x with
    | true => exact .some hxy
    | false => exact ih

/-- The call of an alias is that of its tree, if it has one. -/
theorem rel_find?_of_emitAll (h : emitAll settings first trees = .ok es) (aliasName : String) :
    Option.Rel (fun tree e => ∃ first, tree.emit settings first = .ok e)
      (trees.find? (·.binding.aliasName = aliasName)) (es.find? (·.aliasName = aliasName)) := by
  refine rel_find? (forall₂_of_emitAll h) ?_
  rintro tree e ⟨k, he⟩
  rw [SearchTree.aliasName_of_emit he]

/-- Where an alias has the same tree, it has calls of that tree. -/
theorem rel_calls (same : ∀ aliasName, trees.find? (·.binding.aliasName = aliasName) =
      trees'.find? (·.binding.aliasName = aliasName))
    (h : emitAll settings first trees = .ok es) (h' : emitAll settings first' trees' = .ok es')
    (aliasName : String) :
    Option.Rel (fun e e' => ∃ tree ∈ trees, ∃ k k', tree.emit settings k = .ok e ∧
        tree.emit settings k' = .ok e')
      (es.find? (·.aliasName = aliasName)) (es'.find? (·.aliasName = aliasName)) := by
  have rel := rel_find?_of_emitAll h aliasName
  have rel' := rel_find?_of_emitAll h' aliasName
  rw [← same] at rel'
  generalize es.find? (·.aliasName = aliasName) = call at rel ⊢
  generalize es'.find? (·.aliasName = aliasName) = call' at rel' ⊢
  cases hfound : trees.find? (·.binding.aliasName = aliasName) with
  | none =>
    rw [hfound] at rel rel'
    cases rel
    cases rel'
    exact .none
  | some tree =>
    rw [hfound] at rel rel'
    cases rel with
    | some he =>
      cases rel' with
      | some he' =>
        obtain ⟨k, he⟩ := he
        obtain ⟨k', he'⟩ := he'
        exact .some ⟨tree, List.mem_of_find?_eq_some hfound, k, k', he, he'⟩

section Inline

variable (inline : settings.parameterize = false)

include inline

theorem emitAll_inline : (∃ es, emitAll settings first trees = .ok es) ↔
    ∀ tree ∈ trees, ∃ e, tree.emit settings 1 = .ok e := by
  induction trees generalizing first with
  | nil => exact ⟨fun _ => List.forall_mem_nil _, fun _ => ⟨[], rfl⟩⟩
  | cons tree rest ih =>
    rw [List.forall_mem_cons]
    constructor
    · rintro ⟨es, hes⟩
      obtain ⟨e, es', he, hrest, -⟩ := emitAll_cons hes
      rw [SearchTree.emit_inline inline first 1] at he
      exact ⟨⟨e, he⟩, ih.mp ⟨es', hrest⟩⟩
    · rintro ⟨⟨e, he⟩, later⟩
      rw [SearchTree.emit_inline inline 1 first] at he
      obtain ⟨es, hes⟩ := (@ih (first + e.parameters.length)).mpr later
      refine ⟨e :: es, ?_⟩
      rw [emitAll, he]
      simp only [bind, Except.bind, hes]
      rfl

theorem find?_inline (same : ∀ aliasName, trees.find? (·.binding.aliasName = aliasName) =
      trees'.find? (·.binding.aliasName = aliasName))
    (h : emitAll settings first trees = .ok es) (h' : emitAll settings first' trees' = .ok es')
    (aliasName : String) :
    es.find? (·.aliasName = aliasName) = es'.find? (·.aliasName = aliasName) := by
  have rel := rel_calls same h h' aliasName
  generalize es.find? (·.aliasName = aliasName) = call at rel ⊢
  generalize es'.find? (·.aliasName = aliasName) = call' at rel ⊢
  cases rel with
  | none => rfl
  | some both =>
    obtain ⟨tree, -, k, k', he, he'⟩ := both
    rw [SearchTree.emit_inline inline k k', he'] at he
    cases he
    rfl

theorem parameters_inline (h : emitAll settings first trees = .ok es) :
    es.flatMap (·.parameters) = [] := by
  induction trees generalizing first es with
  | nil =>
    cases h
    rfl
  | cons tree rest ih =>
    obtain ⟨e, es', he, hrest, rfl⟩ := emitAll_cons h
    rw [List.flatMap_cons, SearchTree.parameters_of_emit_inline inline he, ih hrest]
    rfl

end Inline

/-! ## The whole text -/

variable {s t : Statement}

theorem render_eq (frames : s.frame = t.frame)
    (calls : ∀ aliasName,
      es.find? (·.aliasName = aliasName) = es'.find? (·.aliasName = aliasName)) :
    s.render es = t.render es' := by
  have texts : refText es = refText es' := by
    funext ref
    rw [refText, refText, itemText, itemText, calls]
  have whole : s.frame.render es = t.frame.render es' := by
    rw [frames, render, render, texts]
  exact whole

theorem snd_build (s : Statement) (settings : Settings) :
    (s.build settings).2 = if s.refs.isEmpty then .error .noFrom
      else (s.expressions settings).2.map fun es => (s.render es, es.flatMap (·.parameters)) := by
  unfold build
  by_cases none : s.refs.isEmpty = true
  · rw [if_pos none, if_pos none]
  · rw [if_neg none, if_neg none]
    have frames : (s.expressions settings).1.frame = s.frame := by
      rw [fst_expressions, frame_finalize]
    cases he : s.expressions settings with
    | mk s' result =>
      rw [he] at frames
      cases result with
      | error e => rfl
      | ok es =>
        have text : s'.render es = s.render es := render_eq frames fun _ => rfl
        simp only [text]
        rfl

theorem exists_expressions_of_build {settings : Settings} {built : String × List Value}
    (h : (s.build settings).2 = .ok built) :
    ∃ es, (s.expressions settings).2 = .ok es ∧
      built = (s.render es, es.flatMap (·.parameters)) := by
  rw [snd_build] at h
  by_cases none : s.refs.isEmpty = true
  · rw [if_pos none] at h
    cases h
  · rw [if_neg none] at h
    obtain ⟨es, hes, rfl⟩ := Except.map_eq_ok.mp h
    exact ⟨es, hes, rfl⟩

/-! ## The same trees in another order -/

/-- The same trees, but for their order. -/
structure SameTrees (trees trees' : List SearchTree) : Prop where
  find : ∀ aliasName, trees.find? (·.binding.aliasName = aliasName) =
    trees'.find? (·.binding.aliasName = aliasName)
  left : (trees.map (·.binding.aliasName)).Nodup
  right : (trees'.map (·.binding.aliasName)).Nodup

/-- The same call, but for the numbers of its placeholders. -/
def Renumbered (e e' : Expression) : Prop := ∃ d, e' = { e with sql := renumber d e.sql }

/-- The calls of every alias are related. -/
def CallsAlike (R : Expression → Expression → Prop) (es es' : List Expression) : Prop :=
  ∀ aliasName, Option.Rel R (es.find? (·.aliasName = aliasName))
    (es'.find? (·.aliasName = aliasName))

namespace SameTrees

theorem symm (h : SameTrees trees trees') : SameTrees trees' trees :=
  ⟨fun aliasName => (h.find aliasName).symm, h.right, h.left⟩

theorem mem (h : SameTrees trees trees') {tree : SearchTree} (ht : tree ∈ trees') :
    tree ∈ trees := by
  have found := find?_of_mem (fun tree : SearchTree => tree.binding.aliasName) h.right ht
  rw [← h.find] at found
  exact List.mem_of_find?_eq_some found

theorem emitAll_inline (h : SameTrees trees trees') (inline : settings.parameterize = false) :
    (∃ es es', emitAll settings 1 trees = .ok es ∧ emitAll settings 1 trees' = .ok es' ∧
      CallsAlike Eq es es') ∨
    ∃ e e', emitAll settings 1 trees = .error e ∧ emitAll settings 1 trees' = .error e' := by
  have both : (∃ es, emitAll settings 1 trees = .ok es) ↔
      ∃ es, emitAll settings 1 trees' = .ok es := by
    rw [Statement.emitAll_inline inline, Statement.emitAll_inline inline]
    constructor
    · intro each tree ht
      exact each tree (h.mem ht)
    · intro each tree ht
      exact each tree (h.symm.mem ht)
  cases hes : emitAll settings 1 trees with
  | ok es =>
    obtain ⟨es', hes'⟩ := both.mp ⟨es, hes⟩
    refine Or.inl ⟨es, es', rfl, hes', ?_⟩
    intro aliasName
    rw [find?_inline inline h.find hes hes' aliasName]
    cases es'.find? (·.aliasName = aliasName) with
    | none => exact .none
    | some e => exact .some rfl
  | error e =>
    cases hes' : emitAll settings 1 trees' with
    | ok es' =>
      obtain ⟨es, hok⟩ := both.mpr ⟨es', hes'⟩
      rw [hes] at hok
      cases hok
    | error e' => exact Or.inr ⟨e, e', rfl, rfl⟩

theorem emitAll_numbered {es es' : List Expression} (h : SameTrees trees trees')
    (numbered : settings.parameterize = true) (names : ∀ tree ∈ trees, tree.HasPlainNames)
    (hes : emitAll settings 1 trees = .ok es) (hes' : emitAll settings 1 trees' = .ok es') :
    CallsAlike Renumbered es es' := by
  obtain ⟨dialect, parameterize, maxDepth, maxLength⟩ := settings
  cases numbered
  intro aliasName
  have rel := rel_calls h.find hes hes' aliasName
  generalize es.find? (·.aliasName = aliasName) = call at rel ⊢
  generalize es'.find? (·.aliasName = aliasName) = call' at rel ⊢
  cases rel with
  | none => exact .none
  | some both =>
    obtain ⟨tree, htree, k, k', he, he'⟩ := both
    exact .some ⟨k' - k, SearchTree.renumber_of_emit (names tree htree) he he'⟩

end SameTrees

end Statement

end SearchSql
