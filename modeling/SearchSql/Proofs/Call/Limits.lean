import SearchSql.Proofs.Call.Emitter
import SearchSql.Proofs.Success

/-!
# Limits

The limits of an emitter only decide whether there is a call: exactly those calls are emitted whose
tree is as shallow and whose text is as short as the settings ask, and they are what is emitted
without limits (`limits_filter_exactly`). With that, the bounds on the depth of normalized sequences
say which searches the limit of the depth can never stop (`normalization_adds_few_levels`).
-/

namespace SearchSql

/-! ## Marks -/

theorem Script.mem_commaSeparated {args : List Script} {s : Script} (hs : s ∈ args) {step : Step}
    (h : step ∈ s) : step ∈ commaSeparated args := by
  fun_induction commaSeparated args with
  | case1 => cases hs
  | case2 t =>
    cases List.mem_singleton.mp hs
    exact h
  | case3 t rest _ ih =>
    rcases List.mem_cons.mp hs with rfl | hs
    · exact List.mem_append_left _ h
    · exact List.mem_append_right _ (List.mem_cons_of_mem _ (ih hs))

theorem Script.mem_call {function : String} {args : List Script} {s : Script} (hs : s ∈ args)
    {step : Step} (h : step ∈ s) : step ∈ call function args :=
  List.mem_cons_of_mem _ (List.mem_append_left _ (mem_commaSeparated hs h))

namespace Predicate

theorem exists_child_of_lt_depth {p : Predicate Value} {i : ℕ} (h : i + 1 < p.depth) :
    ∃ q ∈ p.children, i < q.depth := by
  by_contra none
  push Not at none
  have shallow := depthAll_le_iff.mpr none
  rw [depth_eq] at h
  omega

/-- The script of a predicate has a mark for each of its levels. -/
theorem enter_mem_script (style : Style) (p : Predicate Value) (depth : ℕ) {i : ℕ}
    (h : i < p.depth) : .enter (depth + i) ∈ style.script depth p := by
  induction p using tree_induction generalizing depth i with
  | leaf p leaf =>
    have only : i = 0 := by
      rw [depth_eq, leaf, depthAll] at h
      omega
    subst only
    cases p with
    | boolean => cases leaf
    | boost => cases leaf
    | _ => exact List.mem_cons_self
  | boolean kind first rest ih =>
    cases i with
    | zero => exact List.mem_cons_self
    | succ i =>
      obtain ⟨q, hq, deep⟩ := exists_child_of_lt_depth h
      have mark := ih q hq (depth + 1) deep
      rw [Nat.add_right_comm, Nat.add_assoc] at mark
      have listed : style.script (depth + 1) q ∈ style.scripts (depth + 1) (first :: rest) := by
        rw [Style.scripts_eq_map]
        exact List.mem_map_of_mem hq
      refine List.mem_cons_of_mem _ (Script.mem_call List.mem_cons_self ?_)
      refine List.mem_cons_of_mem _ (List.mem_cons_of_mem _ (List.mem_append_left _ ?_))
      exact Script.mem_commaSeparated listed mark
  | boost query factor ih =>
    cases i with
    | zero => exact List.mem_cons_self
    | succ i =>
      obtain ⟨q, hq, deep⟩ := exists_child_of_lt_depth h
      cases List.mem_singleton.mp hq
      have mark := ih (depth + 1) deep
      rw [Nat.add_right_comm, Nat.add_assoc] at mark
      refine List.mem_cons_of_mem _ (Script.mem_call (List.mem_cons_of_mem _ List.mem_cons_self) ?_)
      exact List.mem_cons_of_mem _ mark

end Predicate

variable {settings : Settings} {first : Int}

/-- A script that is played to the end has no mark below the limit. -/
theorem Script.depth_le_of_play {script : Script} {draft draft' : Draft}
    (h : script.foldlM (Draft.play settings first) draft = .ok draft') {d : ℕ}
    (mark : .enter d ∈ script) : d ≤ settings.maxDepth := by
  induction script generalizing draft with
  | nil => cases mark
  | cons step rest ih =>
    rw [List.foldlM_cons] at h
    obtain ⟨next, played, later⟩ := Except.bind_eq_ok.mp h
    rcases List.mem_cons.mp mark with rfl | mark
    · rw [Draft.play] at played
      rcases Draft.checkLimits_cases settings d draft with ⟨-, shallow, -⟩ | ⟨-, err⟩ | ⟨-, err⟩
      · exact shallow
      · rw [err] at played
        cases played
      · rw [err] at played
        cases played
    · exact ih later mark

namespace SearchTree

variable {tree : SearchTree}

/-- What is emitted is within the limit of the depth. -/
theorem depth_le_of_emit {e : Expression} (h : tree.emit settings first = .ok e) :
    tree.root.depth ≤ settings.maxDepth := by
  obtain ⟨draft, played, -⟩ := Except.bind_eq_ok.mp ((emit_eq tree settings first).symm.trans h)
  obtain ⟨i, hi⟩ : ∃ i, tree.root.depth = 1 + i := ⟨_, tree.root.depth_eq⟩
  have mark := tree.root.enter_mem_script settings.dialect.style 1 (i := i) (by omega)
  rw [← hi] at mark
  exact Script.depth_le_of_play played
    (Script.mem_call List.mem_cons_self (List.mem_cons_of_mem _ mark))

/-- Only a mark can be found too deep. -/
theorem lt_depth_of_play {draft : Draft} {step : Step} {d : ℕ} {limit : Int}
    (h : Draft.play settings first draft step = .error (.depth d limit)) :
    step = .enter d ∧ limit = settings.maxDepth ∧ limit < d := by
  cases step with
  | text s => cases h
  | enter d' =>
    rw [Draft.play] at h
    rcases Draft.checkLimits_cases settings d' draft with ⟨ok, -⟩ | ⟨deep, err⟩ | ⟨-, err⟩
    · rw [ok] at h
      cases h
    · rw [err] at h
      cases h
      exact ⟨rfl, rfl, deep⟩
    · rw [err] at h
      cases h
  | slot v argument =>
    rw [Draft.play] at h
    cases hv : v.encode with
    | error x =>
      rw [hv] at h
      cases h
    | ok literal =>
      rw [hv] at h
      cases h
  | unsupported n => cases h

/-- A tree that is found too deep is too deep. -/
theorem lt_depth_of_emit {d : ℕ} {limit : Int}
    (h : tree.emit settings first = .error (.depth d limit)) :
    limit = settings.maxDepth ∧ limit < d ∧ d ≤ tree.root.depth := by
  -- The end of emission checks the limits like a mark at depth zero.
  rw [emit_eq_map] at h
  cases played : (settings.dialect.style.searchCall tree ++ [Step.enter 0]).foldlM
      (Draft.play settings first) Draft.empty with
  | ok draft =>
    rw [played] at h
    cases h
  | error x =>
    rw [played] at h
    cases h
    obtain ⟨step, hstep, draft, stopped⟩ := Script.exists_step_of_play_error played
    obtain ⟨rfl, same, deep⟩ := lt_depth_of_play stopped
    refine ⟨same, deep, ?_⟩
    rcases List.mem_append.mp hstep with inside | last
    · cases tree.mem_searchCall settings.dialect.style_plain _ inside
      assumption
    · cases List.mem_singleton.mp last
      exact Nat.zero_le _

theorem emit_eq_ok_iff {t : Template} (ht : tree.template? settings.dialect = some t)
    {x : Expression} :
    tree.emit settings first = .ok x ↔
      x = tree.filled settings first t ∧ tree.root.depth ≤ settings.maxDepth ∧
        x.sql.length ≤ settings.maxLength := by
  constructor
  · intro emitted
    rcases @emit_cases settings first tree t ht with ⟨short, ok⟩ | ⟨d, -, -, err⟩ | ⟨-, err⟩
    · have shallow := depth_le_of_emit emitted
      rw [ok] at emitted
      cases emitted
      exact ⟨rfl, shallow, short⟩
    · rw [err] at emitted
      cases emitted
    · rw [err] at emitted
      cases emitted
  · rintro ⟨rfl, shallow, short⟩
    exact emit_within ht shallow short

theorem error_of_emit {t : Template} (ht : tree.template? settings.dialect = some t)
    {err : EmissionError} (h : tree.emit settings first = .error err) :
    (∃ d : ℕ, err = .depth d settings.maxDepth ∧ settings.maxDepth < d ∧ d ≤ tree.root.depth) ∨
      err = .length settings.maxLength ∧
        settings.maxLength < (tree.filled settings first t).sql.length := by
  rcases @emit_cases settings first tree t ht with ⟨-, ok⟩ | ⟨d, inside, deep, err⟩ | ⟨long, err⟩
  · rw [ok] at h
    cases h
  · rw [err] at h
    cases h
    exact Or.inl ⟨d, rfl, deep, inside⟩
  · rw [err] at h
    cases h
    exact Or.inr ⟨rfl, long⟩

/-- A validated tree of known nodes is emitted exactly if its depth and the length of its call are
within the limits. The call, the limits aside, is `whole`: they change nothing in what is emitted
and in which parameters there are. Where there is no call, the error names a limit that is really
exceeded. So what is emitted stays so when the limits are raised. What the emitter has been used for
before does not matter, nor does the dialect, nor whether values are bound. -/
theorem limits_filter_exactly (dialect : Dialect) (parameterize : Bool) (first : Int)
    (tree : SearchTree) (known : ∀ n, .foreign n ∉ tree.root.nodes) (validated : tree.IsValidated) :
    ∃ whole : Expression,
      (∀ (e : Emitter) (maxDepth maxLength : Int),
        e.settings = ⟨dialect, parameterize, maxDepth, maxLength⟩ →
        ((e.emit tree first).2 = .ok whole ↔
          tree.root.depth ≤ maxDepth ∧ whole.sql.length ≤ maxLength) ∧
        (∀ x, (e.emit tree first).2 = .ok x → x = whole) ∧
        (∀ err, (e.emit tree first).2 = .error err →
          (∃ d : ℕ, err = .depth d maxDepth ∧ maxDepth < d ∧ d ≤ tree.root.depth) ∨
          err = .length maxLength ∧ maxLength < whole.sql.length)) ∧
      ∀ (e e' : Emitter) (maxDepth maxDepth' maxLength maxLength' : Int) (x : Expression),
        e.settings = ⟨dialect, parameterize, maxDepth, maxLength⟩ →
        e'.settings = ⟨dialect, parameterize, maxDepth', maxLength'⟩ →
        maxDepth ≤ maxDepth' → maxLength ≤ maxLength' →
        (e.emit tree first).2 = .ok x → (e'.emit tree first).2 = .ok x := by
  obtain ⟨t, ht⟩ := validated.exists_template known dialect
  have ok_iff (e : Emitter) (maxDepth maxLength : Int)
      (he : e.settings = ⟨dialect, parameterize, maxDepth, maxLength⟩) (x : Expression) :
      (e.emit tree first).2 = .ok x ↔
        x = tree.filled ⟨dialect, parameterize, maxDepth, maxLength⟩ first t ∧
          tree.root.depth ≤ maxDepth ∧ x.sql.length ≤ maxLength := by
    rw [Emitter.snd_emit, he]
    exact @emit_eq_ok_iff ⟨dialect, parameterize, maxDepth, maxLength⟩ first tree t ht x
  -- What the template is filled with does not depend on the limits.
  refine ⟨tree.filled ⟨dialect, parameterize, 0, 0⟩ first t, ?_, ?_⟩
  · intro e maxDepth maxLength he
    refine ⟨?_, ?_, ?_⟩
    · rw [ok_iff e maxDepth maxLength he]
      exact ⟨fun h => h.2, fun h => ⟨rfl, h⟩⟩
    · intro x hx
      exact ((ok_iff e maxDepth maxLength he x).mp hx).1
    · intro err herr
      rw [Emitter.snd_emit, he] at herr
      exact @error_of_emit ⟨dialect, parameterize, maxDepth, maxLength⟩ first tree t ht err herr
  · intro e e' maxDepth maxDepth' maxLength maxLength' x he he' deeper longer hx
    obtain ⟨filled, shallow, short⟩ := (ok_iff e maxDepth maxLength he x).mp hx
    exact (ok_iff e' maxDepth' maxLength' he' x).mpr
      ⟨filled, shallow.trans deeper, short.trans longer⟩

/-- A negated conjunction, three levels deep. -/
def negatedSearch : SearchTree where
  binding := ⟨"d", "d", ⟨"d", "i", ["b"], none⟩⟩
  root := .boolean .mustNot (.boolean .must (.parse "a") [.present "b"]) []
  options := [(.limitRows, .int 3)]

/-- An emitter that was left in the middle of a call. -/
def usedEmitter (maxDepth maxLength : Int) : Emitter :=
  ⟨⟨.shorthand, true, maxDepth, maxLength⟩, "i.search(", 7, [.null], 4⟩

theorem isValidated_negatedSearch : negatedSearch.IsValidated := by
  constructor
  · intro v hv
    rw [Predicate.literals, Predicate.nodes_eq_preorder] at hv
    cases List.mem_singleton.mp hv
    exact ⟨.string "a", rfl⟩
  · intro o v ho
    cases o with
    | limitRows => cases ho; rfl
    | offsetRows => cases ho
    | stableSort => cases ho

theorem limits_filter_negatedSearch :
    ∃ whole : Expression,
      whole.sql = "i.search(query => boolean(must_not => [boolean(must => [parse($5), " ++
        "exists(field=>'b')])]), limit_rows => $6)" ∧ whole.parameters = [.text "a", .int 3] ∧
      ((usedEmitter 3 108).emit negatedSearch 5).2 = .ok whole ∧
      ((usedEmitter 2 108).emit negatedSearch 5).2 = .error (.depth 3 2) ∧
      ((usedEmitter 3 107).emit negatedSearch 5).2 = .error (.length 107) ∧
      ((usedEmitter 9 500).emit negatedSearch 5).2 = .ok whole := by
  have known : ∀ n, .foreign n ∉ negatedSearch.root.nodes := by
    intro n hn
    rw [Predicate.nodes_eq_preorder] at hn
    simp [negatedSearch, Predicate.preorder, Predicate.preorderAll] at hn
  obtain ⟨whole, exact, raised⟩ :=
    limits_filter_exactly .shorthand true 5 negatedSearch known isValidated_negatedSearch
  obtain ⟨t, ht⟩ := isValidated_negatedSearch.exists_template known .shorthand
  obtain rfl : (negatedSearch.template? .shorthand).getD [] = t := by rw [ht]; rfl
  have within : ((usedEmitter 3 108).emit negatedSearch 5).2 = .ok (negatedSearch.filled
      ⟨.shorthand, true, 3, 108⟩ 5 ((negatedSearch.template? .shorthand).getD [])) := by
    rw [Emitter.snd_emit]
    exact @emit_within ⟨.shorthand, true, 3, 108⟩ 5 negatedSearch _ ht (by decide)
      (by decide +kernel)
  obtain rfl := (exact (usedEmitter 3 108) 3 108 rfl).2.1 _ within
  have length : (negatedSearch.filled ⟨.shorthand, true, 3, 108⟩ 5
      ((negatedSearch.template? .shorthand).getD [])).sql.length = 108 := by
    decide +kernel
  have depth : negatedSearch.root.depth = 3 := rfl
  refine ⟨_, by decide +kernel, rfl, within, ?_, ?_, ?_⟩
  · obtain ⟨ok_iff, only, errors⟩ := exact (usedEmitter 2 108) 2 108 rfl
    cases h : ((usedEmitter 2 108).emit negatedSearch 5).2 with
    | ok x =>
      obtain rfl := only x h
      have := (ok_iff.mp h).1
      omega
    | error err =>
      rcases errors err h with ⟨d, rfl, deep, inside⟩ | ⟨-, long⟩
      · obtain rfl : d = 3 := by omega
        rfl
      · omega
  · obtain ⟨ok_iff, only, errors⟩ := exact (usedEmitter 3 107) 3 107 rfl
    cases h : ((usedEmitter 3 107).emit negatedSearch 5).2 with
    | ok x =>
      obtain rfl := only x h
      have := (ok_iff.mp h).2
      omega
    | error err =>
      rcases errors err h with ⟨d, rfl, deep, inside⟩ | ⟨rfl, -⟩
      · omega
      · rfl
  · exact raised (usedEmitter 3 108) (usedEmitter 9 500) 3 9 108 500 _ rfl rfl (by decide)
      (by decide) within

end SearchTree

/-! ## Normalized sequences -/

namespace Entry

open Predicate

variable {α : Type} {d : ℕ}

theorem depth_simplified_le {first : Entry α} {rest : List (Entry α)}
    (h : ∀ e ∈ first :: rest, e.node.simplify.depth ≤ d) :
    first.node.simplify.depth ≤ d ∧ ∀ e ∈ rest.map simplify, e.node.depth ≤ d := by
  obtain ⟨hfirst, hrest⟩ := List.forall_mem_cons.mp h
  exact ⟨hfirst, List.forall_mem_map.mpr hrest⟩

theorem map_op_simplify (rest : List (Entry α)) :
    (rest.map simplify).map (·.op) = rest.map (·.op) := by
  rw [List.map_map]
  rfl

theorem countP_simplify (rest : List (Entry α)) :
    (rest.map simplify).countP (·.op = .orAllPrior) = rest.countP (·.op = .orAllPrior) := by
  rw [List.countP_map]
  rfl

/-- Normalization nests little deeper than the predicates of the sequence, each simplified, of which
the deepest has depth `d`, and simplification itself makes no predicate deeper. From left to right
there is one level more for each place at which one begins; with `and` binding tighter there are two
more, and one for each `orAllPrior` behind the first place. In particular a chain of `and`s or of
`or`s of any length adds one level by either rule, so it is not stopped as too deep by an emitter
whose limit leaves room for that one. -/
theorem normalization_adds_few_levels (first second : Entry Value) (rest : List (Entry Value)) :
    let entries := first :: second :: rest
    let d := depthAll (entries.map fun e => e.node.simplify)
    (∀ p : Predicate Value, p.simplify.depth ≤ p.depth) ∧
    (∃ root, normalize .leftToRight entries = some root ∧
      root.depth ≤ d + levels (entries.map (·.op))) ∧
    (∃ root, normalize .andPrecedence entries = some root ∧
      root.depth ≤ d + 2 + (second :: rest).countP (·.op = .orAllPrior)) ∧
    ∀ strategy op, op ≠ .orAllPrior → (∀ e ∈ second :: rest, e.op = op) →
      ∃ root, normalize strategy entries = some root ∧ root.depth ≤ d + 1 ∧
        ∀ (e : Emitter) (tree : SearchTree) (first : Int), tree.root = root →
          d + 1 ≤ e.settings.maxDepth →
          ∀ depth limit, (e.emit tree first).2 ≠ .error (.depth depth limit) := by
  intro entries d
  have nodes : ∀ e ∈ entries, e.node.simplify.depth ≤ d := fun e he =>
    depth_le_depthAll (List.mem_map_of_mem he)
  obtain ⟨hfirst, hrest⟩ := depth_simplified_le nodes
  refine ⟨depth_simplify_le, ⟨_, rfl, ?_⟩, ⟨_, rfl, ?_⟩, ?_⟩
  · have bound := depth_fold_left_le first.op hfirst hrest
    rwa [map_op_simplify] at bound
  · have bound := depth_fold_groups_le hfirst hrest
    rwa [countP_simplify] at bound
  · intro strategy op other same
    have row : ∀ e ∈ (second :: rest).map simplify, e.op = op := List.forall_mem_map.mpr same
    have bound := depth_fold_row_le strategy other hfirst row hrest
    refine ⟨_, rfl, bound, ?_⟩
    intro e tree number hroot room depth limit stopped
    rw [Emitter.snd_emit] at stopped
    obtain ⟨rfl, below, inside⟩ := SearchTree.lt_depth_of_emit stopped
    rw [hroot] at inside
    have reached : d + 1 < depth := by exact_mod_cast room.trans_lt below
    omega

/-- A choice of two is joined by `or` to a field that is present and that to a conjunction. -/
theorem normalization_adds_few_levels_to_choices :
    ∃ root, normalize .andPrecedence
        [⟨.and, .boolean .should (.parse "a") [.parse "b"]⟩, ⟨.or, .present "c"⟩,
          ⟨.or, .boolean .must (.parse "d") [.parse "e"]⟩] = some root ∧ root.depth ≤ 3 ∧
      ∀ e : Emitter, 3 ≤ e.settings.maxDepth → ∀ depth limit,
        (e.emit ⟨⟨"d", "d", ⟨"d", "i", ["c"], none⟩⟩, root, []⟩ 1).2 ≠
          .error (.depth depth limit) := by
  obtain ⟨-, -, -, chain⟩ := normalization_adds_few_levels
    ⟨.and, .boolean .should (.parse "a") [.parse "b"]⟩ ⟨.or, .present "c"⟩
    [⟨.or, .boolean .must (.parse "d") [.parse "e"]⟩]
  obtain ⟨root, normalized, depth, unstopped⟩ :=
    chain .andPrecedence .or (by decide) (by simp)
  have deepest : depthAll (([⟨.and, .boolean .should (.parse "a") [.parse "b"]⟩,
      ⟨.or, .present "c"⟩, ⟨.or, .boolean .must (.parse "d") [.parse "e"]⟩] :
        List (Entry Value)).map fun e => e.node.simplify) = 2 := by
    cbv
  rw [deepest] at depth unstopped
  exact ⟨root, normalized, depth, fun e room => unstopped e _ 1 rfl room⟩

/-- What comes third in a chain of `orAllPrior`s is set against a choice of the first two. -/
def priorChoice : SearchTree where
  binding := ⟨"d", "d", ⟨"d", "i", ["a", "b", "c"], none⟩⟩
  root := .boolean .should (.boolean .should (.present "a") [.present "b"]) [.present "c"]
  options := []

theorem isValidated_priorChoice : priorChoice.IsValidated := by
  constructor
  · intro v hv
    rw [literals, nodes_eq_preorder] at hv
    cases hv
  · intro o v ho
    cases o <;> cases ho

/-- A chain of `orAllPrior`s adds more levels the longer it is, by either rule, and is stopped by an
emitter that has room for one. -/
theorem orAllPrior_chain_adds_levels :
    let entries : List (Entry Value) :=
      [⟨.orAllPrior, .present "a"⟩, ⟨.orAllPrior, .present "b"⟩, ⟨.orAllPrior, .present "c"⟩]
    depthAll (entries.map fun e => e.node.simplify) = 1 ∧
      normalize .leftToRight entries = some priorChoice.root ∧
      normalize .andPrecedence entries = some priorChoice.root ∧
      ¬ priorChoice.root.depth ≤ 1 + 1 ∧
      ((SearchTree.usedEmitter 2 1000).emit priorChoice 1).2 = .error (.depth 3 2) := by
  have known : ∀ n, .foreign n ∉ priorChoice.root.nodes := by
    intro n hn
    rw [nodes_eq_preorder] at hn
    simp [priorChoice, preorder, preorderAll] at hn
  obtain ⟨t, ht⟩ := isValidated_priorChoice.exists_template known .shorthand
  obtain rfl : (priorChoice.template? .shorthand).getD [] = t := by rw [ht]; rfl
  refine ⟨by cbv, by cbv, by cbv, by decide, ?_⟩
  rw [Emitter.snd_emit]
  cases h : priorChoice.emit (SearchTree.usedEmitter 2 1000).settings 1 with
  | ok x => exact absurd (SearchTree.depth_le_of_emit h) (by decide)
  | error err =>
    rcases @SearchTree.error_of_emit ⟨.shorthand, true, 2, 1000⟩ 1 priorChoice _ ht err h with
      ⟨d, rfl, below, inside⟩ | ⟨-, long⟩
    · have below : (2 : Int) < d := below
      have inside : d ≤ 3 := inside
      obtain rfl : d = 3 := by omega
      rfl
    · exact absurd long (by decide +kernel)

end Entry

end SearchSql
