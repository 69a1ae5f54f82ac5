import SearchSql.Proofs.Statement.Invariant

/-!
# What one operation does

An operation on the search of an alias finds that search or begins it, and then fills it or fails
(`apply_searching`). Any other operation leaves the searches alone or finalizes the statement
(`apply_foreign`), after which its trees and its searches stay as they are (`apply_closed`). The
relations and the clauses are a frame around the searches, and what an operation does to the frame
depends on the frame alone (`frame_apply`).
-/

namespace SearchSql

/-- The predicates and options of a search. -/
structure Content where
  entries : List (Entry Value)
  options : Table SearchOption Value

namespace Search

def content (s : Search) : Content := ⟨s.entries, s.options⟩

/-- The search with another content. -/
def fill (s : Search) (content : Content) : Search :=
  { s with entries := content.entries, options := content.options }

@[simp] theorem binding_fill (s : Search) (content : Content) :
    (s.fill content).binding = s.binding := rfl

@[simp] theorem content_fill (s : Search) (content : Content) :
    (s.fill content).content = content := rfl

end Search

namespace Statement

namespace Operation

/-- The alias whose search an operation adds something to. -/
def alias? : Operation → Option String
  | .add aliasName _ _ => some aliasName
  | .setOption aliasName _ _ => some aliasName
  | _ => none

/-- The search gets a predicate. -/
def isAdd : Operation → Bool
  | .add _ _ _ => true
  | _ => false

/-- What becomes of the content of that search, if the operation succeeds. -/
def collect (content : Content) : Operation → Content
  | .add _ (.predicate p) how => match Search.requireJoin how with
    | .ok op => { content with entries := content.entries ++ [⟨op, p⟩] }
    | .error _ => content
  | .setOption _ name value => match SearchOption.check name value with
    | .ok o => { content with options := content.options.put o value }
    | .error _ => content
  | _ => content

/-- The relations of a statement are set and joined. -/
def isRelation : Operation → Bool
  | .selectFrom _ _ => true
  | .join _ _ _ _ => true
  | _ => false

/-- What stands around the relations is given. -/
def isClause : Operation → Bool
  | .addColumns _ => true
  | .addCondition _ => true
  | .addOrdering _ => true
  | _ => false

/-- The searches are changed or closed. -/
def isSearching : Operation → Bool
  | .add _ _ _ => true
  | .setOption _ _ _ => true
  | .finalize => true
  | _ => false

/-- The relations, or what stands around them. -/
def isFraming (op : Operation) : Bool := op.isRelation || op.isClause

end Operation

/-- The statement without its searches. -/
def frame (s : Statement) : Statement :=
  { s with bindings := .ofRegistry s.registry, searches := [], trees := none }

/-- The aliases of the searches, in the order in which they were begun. -/
def searched (s : Statement) : List String := s.searches.map (·.binding.aliasName)

/-- The binding that the search of an alias has, once it is begun. -/
def binding? (s : Statement) (aliasName : String) : Option Binding :=
  (s.ref? aliasName).bind fun ref => (Binding.ofRegistry s.registry aliasName ref.relation).toOption

variable {s s' : Statement}

theorem refs_of_frame (h : s.frame = s'.frame) : s.refs = s'.refs := by
  have refs := congrArg Statement.refs h
  exact refs

/-! ## Operations on a search -/

theorem search?_eq_some {aliasName : String} {search : Search}
    (h : s.search? aliasName = some search) :
    search ∈ s.searches ∧ search.binding.aliasName = aliasName :=
  ⟨List.mem_of_find?_eq_some h, by simpa using List.find?_some h⟩

/-- The aliases that are bound are those of the searches, in the same order. -/
def BindsSearches (s : Statement) : Prop := s.bindings.bound = s.searches.map (·.binding)

/-- While the bindings are those of the searches, an alias without a search is not bound yet. -/
theorem BindsSearches.bind_new (h : s.BindsSearches) {aliasName : String}
    (new : s.search? aliasName = none) (relation : String) :
    s.bindings.bind aliasName relation =
      (Binding.ofRegistry s.registry aliasName relation).map fun binding =>
        (s.bindings.add binding, binding) := by
  refine Bindings.bind_new ?_ relation
  rw [h, List.find?_map]
  exact Option.map_eq_none_iff.mpr new

/-- The statement with one more search, of which nothing is known yet. -/
def withEmpty (s : Statement) (binding : Binding) : Statement :=
  { s with
    bindings := s.bindings.add binding
    searches := s.searches ++ [Search.ofBinding binding] }

theorem BindsSearches.withEmpty (h : s.BindsSearches) (binding : Binding) :
    (s.withEmpty binding).BindsSearches := by
  have bound : s.bindings.bound = s.searches.map (·.binding) := h
  show s.bindings.bound ++ [binding] = (s.searches ++ [Search.ofBinding binding]).map (·.binding)
  rw [bound, List.map_append]
  rfl

theorem beginSearch_cases {aliasName : String} {search : Search} (bound : s.BindsSearches)
    (h : s.beginSearch aliasName = .ok (s', search)) :
    (s.search? aliasName = some search ∧ s' = s) ∨
    (s.search? aliasName = none ∧ ∃ binding, s.binding? aliasName = some binding ∧
      search = Search.ofBinding binding ∧ s' = s.withEmpty binding) := by
  obtain ⟨-, found | ⟨new, ref, bindings, binding, href, hbind, rfl, rfl⟩⟩ := beginSearch_eq_ok h
  · exact Or.inl found
  · rw [bound.bind_new new] at hbind
    obtain ⟨other, hother, same⟩ := Except.map_eq_ok.mp hbind
    cases same
    refine Or.inr ⟨new, binding, ?_, rfl, rfl⟩
    rw [binding?, href, Option.bind_some, hother]
    rfl

theorem beginSearch_new {aliasName : String} {binding : Binding} (bound : s.BindsSearches)
    (opened : s.trees = none) (new : s.search? aliasName = none)
    (hbinding : s.binding? aliasName = some binding) :
    s.beginSearch aliasName = .ok (s.withEmpty binding, Search.ofBinding binding) := by
  obtain ⟨ref, href, hindex⟩ := Option.bind_eq_some_iff.mp hbinding
  have unfinalized : ¬ s.isFinalized = true := by
    rw [isFinalized, opened]
    exact Bool.false_ne_true
  cases hb : Binding.ofRegistry s.registry aliasName ref.relation with
  | error e =>
    rw [hb] at hindex
    cases hindex
  | ok other =>
    rw [hb] at hindex
    cases hindex
    rw [Statement.beginSearch, if_neg unfinalized]
    simp only [new, href, bound.bind_new new, hb]
    rfl

theorem searched_putSearch (s : Statement) (search : Search) :
    (s.putSearch search).searched = s.searched := by
  rw [searched, searched, Statement.putSearch, List.map_map]
  refine List.map_congr_left fun t _ => ?_
  by_cases same : t.binding.aliasName = search.binding.aliasName
  · simp [same]
  · simp [same]

theorem fill_of_add {search search' : Search} (aliasName : String) {node how : Value}
    (h : search.add node how = .ok search') :
    search' = search.fill (Operation.collect search.content (.add aliasName node how)) := by
  obtain ⟨_, -, h⟩ := Except.bind_eq_ok.mp h
  cases node with
  | predicate p =>
    obtain ⟨op, hop, hs⟩ := Except.bind_eq_ok.mp h
    cases hs
    rw [Operation.collect, hop]
    rfl
  | _ => cases h

theorem fill_of_setOption {search search' : Search} (aliasName : String) {name value : Value}
    (h : search.setOption name value = .ok search') :
    search' = search.fill (Operation.collect search.content (.setOption aliasName name value)) := by
  obtain ⟨_, -, h⟩ := Except.bind_eq_ok.mp h
  obtain ⟨o, ho, hs⟩ := Except.bind_eq_ok.mp h
  cases hs
  rw [Operation.collect, Except.mapError_eq_ok.mp ho]
  rfl

theorem beginSearch_closed {trees : List SearchTree} (closed : s.trees = some trees)
    (aliasName : String) : s.beginSearch aliasName = .error (.reopened aliasName) := by
  have finalized : s.isFinalized = true := by rw [isFinalized, closed]; rfl
  rw [Statement.beginSearch, if_pos finalized]

/-- An operation on the search of an alias finds or begins it, and then fills it or fails. -/
theorem exists_update {op : Operation} {aliasName : String} (named : op.alias? = some aliasName) :
    ∃ update : Search → Except SearchError Search,
      (∀ s : Statement, s.apply op = answer (fun _ => .done) (s.updateSearch aliasName update)) ∧
      ∀ t t', update t = .ok t' → t' = t.fill (op.collect t.content) ∧
        (op.isAdd = true → t'.entries ≠ []) := by
  cases op with
  | add aliasName node how =>
    cases named
    refine ⟨_, fun _ => rfl, fun t t' ht => ⟨fill_of_add aliasName ht, fun _ => ?_⟩⟩
    obtain ⟨-, p, op, -, rfl⟩ := Search.add_eq_ok ht
    exact List.concat_ne_nil _ _
  | setOption aliasName name value =>
    cases named
    exact ⟨_, fun _ => rfl, fun t t' ht => ⟨fill_of_setOption aliasName ht,
      fun h => absurd h Bool.false_ne_true⟩⟩
  | _ => cases named

theorem apply_searching {op : Operation} {aliasName : String} (named : op.alias? = some aliasName)
    (s : Statement) :
    (∃ e, s.beginSearch aliasName = .error e ∧ s.apply op = (s, .error e)) ∨
    ∃ t search, s.beginSearch aliasName = .ok (t, search) ∧
      ((∃ e, s.apply op = (t, .error (.search e))) ∨
        s.apply op = (t.putSearch (search.fill (op.collect search.content)), .ok .done) ∧
          (op.isAdd = true → (op.collect search.content).entries ≠ [])) := by
  obtain ⟨update, applied, fills⟩ := exists_update named
  rw [applied, Statement.updateSearch]
  cases hbegin : s.beginSearch aliasName with
  | error e => exact Or.inl ⟨e, rfl, rfl⟩
  | ok begun =>
    obtain ⟨t, search⟩ := begun
    refine Or.inr ⟨t, search, rfl, ?_⟩
    cases hu : update search with
    | error e =>
      simp only [hu]
      exact Or.inl ⟨e, rfl⟩
    | ok search' =>
      simp only [hu]
      obtain ⟨rfl, added⟩ := fills search search' hu
      exact Or.inr ⟨rfl, added⟩

/-! ## Other operations -/

/-- Building closes the statement first, unless there is nothing to select from. -/
theorem fst_expressions (s : Statement) (settings : Settings) :
    (s.expressions settings).1 = s.finalize.1 := by
  unfold expressions
  cases hf : s.finalize with
  | mk s' result => cases result <;> rfl

theorem fst_build (s : Statement) (settings : Settings) :
    (s.build settings).1 = if s.refs.isEmpty then s else s.finalize.1 := by
  unfold build
  by_cases none : s.refs.isEmpty = true
  · rw [if_pos none, if_pos none]
  · rw [if_neg none, if_neg none, ← fst_expressions s settings]
    cases he : s.expressions settings with
    | mk s' result => cases result <;> rfl

theorem snd_expressions (s : Statement) (settings : Settings) :
    (s.expressions settings).2 =
      s.finalize.2.bind fun trees => (emitAll settings 1 trees).mapError .emission := by
  unfold expressions
  cases hf : s.finalize with
  | mk s' result => cases result <;> rfl

/-- Setting or joining a relation adds it behind those that are there, if it succeeds. -/
theorem apply_relation {op : Operation} (kind : op.isRelation = true) :
    (s.apply op).1 = s ∨ ∃ ref, (s.apply op).1 = { s with refs := s.refs ++ [ref] } := by
  have changed {next : Except StatementError Statement}
      (hnext : ∀ s', next = .ok s' → ∃ ref, s' = { s with refs := s.refs ++ [ref] }) :
      (s.change next).1 = s ∨ ∃ ref, (s.change next).1 = { s with refs := s.refs ++ [ref] } := by
    cases next with
    | error e => exact Or.inl rfl
    | ok s' => exact Or.inr (hnext s' rfl)
  cases op with
  | selectFrom relation aliasName => exact changed fun _ hnext => selectFrom_eq_ok hnext
  | join relation aliasName condition kind => exact changed fun _ hnext => join_eq_ok hnext
  | _ => cases kind

theorem apply_framing {op : Operation} (framing : op.isFraming = true) (s : Statement) :
    (s.apply op).1.trees = s.trees ∧ (s.apply op).1.searches = s.searches := by
  have related (kind : op.isRelation = true) :
      (s.apply op).1.trees = s.trees ∧ (s.apply op).1.searches = s.searches := by
    rcases apply_relation kind with ht | ⟨ref, ht⟩ <;> rw [ht] <;> exact ⟨rfl, rfl⟩
  cases op with
  | selectFrom relation aliasName => exact related rfl
  | join relation aliasName condition kind => exact related rfl
  | addColumns columns => exact ⟨rfl, rfl⟩
  | addCondition fragment => exact ⟨rfl, rfl⟩
  | addOrdering fragment => exact ⟨rfl, rfl⟩
  | _ => cases framing

/-- An operation that is not on a search finalizes the statement at most. -/
theorem apply_foreign {op : Operation} (foreign : op.alias? = none) (s : Statement) :
    (s.apply op).1 = s.finalize.1 ∨
      ((s.apply op).1.trees = s.trees ∧ (s.apply op).1.searches = s.searches) := by
  cases op with
  | add => cases foreign
  | setOption => cases foreign
  | finalize => exact Or.inl rfl
  | expressions settings => exact Or.inl (fst_expressions s settings)
  | build settings =>
    have built := fst_build s settings
    by_cases none : s.refs.isEmpty = true
    · rw [if_pos none] at built
      refine Or.inr ?_
      have applied : (s.apply (.build settings)).1 = s := built
      rw [applied]
      exact ⟨rfl, rfl⟩
    · rw [if_neg none] at built
      exact Or.inl built
  | _ => exact Or.inr (apply_framing rfl s)

/-- Only an operation on a search binds an alias. -/
theorem bindings_apply {op : Operation} (foreign : op.alias? = none) (s : Statement) :
    (s.apply op).1.bindings = s.bindings := by
  have related (kind : op.isRelation = true) : (s.apply op).1.bindings = s.bindings := by
    rcases apply_relation kind with ht | ⟨ref, ht⟩ <;> rw [ht]
  have finalized : s.finalize.1.bindings = s.bindings := by
    cases hf : s.finalize with
    | mk s' result =>
      cases result with
      | error e => rw [finalize_eq_error hf]
      | ok trees => rcases finalize_eq_ok hf with ⟨-, rfl⟩ | ⟨-, searches, -, rfl⟩ <;> rfl
  cases op with
  | add => cases foreign
  | setOption => cases foreign
  | selectFrom relation aliasName => exact related rfl
  | join relation aliasName condition kind => exact related rfl
  | finalize => exact finalized
  | expressions settings => exact (congrArg bindings (fst_expressions s settings)).trans finalized
  | build settings =>
    refine (congrArg bindings (fst_build s settings)).trans ?_
    split
    · rfl
    · exact finalized
  | _ => rfl

/-! ## Statements that are open or closed -/

/-- A closed statement keeps its trees and its searches. -/
theorem apply_closed {trees : List SearchTree} (closed : s.trees = some trees) (op : Operation) :
    (s.apply op).1.trees = some trees ∧ (s.apply op).1.searches = s.searches := by
  rw [← closed]
  cases named : op.alias? with
  | none =>
    rcases apply_foreign named s with ht | kept
    · have kept : s.finalize.1 = s := by rw [Statement.finalize, closed]
      rw [ht, kept]
      exact ⟨rfl, rfl⟩
    · exact kept
  | some aliasName =>
    rcases apply_searching named s with ⟨e, -, ht⟩ | ⟨t, search, hbegin, -⟩
    · rw [ht]
      exact ⟨rfl, rfl⟩
    · rw [beginSearch_closed closed] at hbegin
      cases hbegin

/-- It keeps its bindings, too. -/
theorem bindings_closed {trees : List SearchTree} (closed : s.trees = some trees)
    (op : Operation) : (s.apply op).1.bindings = s.bindings := by
  cases named : op.alias? with
  | none => exact bindings_apply named s
  | some aliasName =>
    rcases apply_searching named s with ⟨e, -, ht⟩ | ⟨t, search, hbegin, -⟩
    · rw [ht]
    · rw [beginSearch_closed closed] at hbegin
      cases hbegin

theorem trees_apply {op : Operation} (stays : (s.apply op).1.trees = none) : s.trees = none := by
  cases closed : s.trees with
  | none => rfl
  | some trees => rw [(apply_closed closed op).1] at stays; cases stays

theorem trees_run {ops : List Operation} (stays : (s.run ops).1.trees = none) :
    s.trees = none := by
  induction ops generalizing s with
  | nil => exact stays
  | cons op rest ih => exact trees_apply (ih stays)

/-- A statement that is open after it was to be finalized has been left as it was. -/
theorem finalize_open (stays : s.finalize.1.trees = none) : s.finalize.1 = s := by
  cases hf : s.finalize with
  | mk s' result =>
    cases result with
    | error e => exact finalize_eq_error hf
    | ok trees =>
      rw [hf, trees_of_finalize hf] at stays
      cases stays

/-! ## The frame -/

theorem frame_finalize (s : Statement) : s.finalize.1.frame = s.frame := by
  cases hf : s.finalize with
  | mk s' result =>
    cases result with
    | error e => rw [finalize_eq_error hf]
    | ok trees => rcases finalize_eq_ok hf with ⟨-, rfl⟩ | ⟨-, searches, -, rfl⟩ <;> rfl

theorem frame_updateSearch (s : Statement) (aliasName : String)
    (update : Search → Except SearchError Search) :
    (s.updateSearch aliasName update).1.frame = s.frame := by
  unfold updateSearch
  cases hbegin : s.beginSearch aliasName with
  | error e => rfl
  | ok begun =>
    obtain ⟨t, search⟩ := begun
    have kept : t.frame = s.frame := by
      obtain ⟨-, ⟨-, rfl⟩ | ⟨-, ref, bindings, binding, -, hbind, -, rfl⟩⟩ :=
        beginSearch_eq_ok hbegin
      · rfl
      · have registry : bindings.registry = s.bindings.registry := (Bindings.bind_eq_ok hbind).1
        simp only [frame, Statement.registry, registry]
    cases hu : update search <;> simp only [hu] <;> exact kept

/-- A relation is added to the frame as it is to the statement. -/
theorem frame_addRef (s : Statement) (ref : RelationRef) :
    s.frame.addRef ref = (s.addRef ref).map frame := by
  unfold addRef
  cases (Name.checkRelation ref.relation).mapError StatementError.name with
  | error e => rfl
  | ok u =>
    cases (Name.check ref.aliasName).mapError StatementError.name with
    | error e => rfl
    | ok u =>
      cases hother : s.ref? ref.aliasName with
      | none =>
        have hother' : s.frame.ref? ref.aliasName = none := hother
        simp only [hother']
        rfl
      | some other =>
        have hother' : s.frame.ref? ref.aliasName = some other := hother
        simp only [hother']
        rfl

theorem frame_selectFrom (s : Statement) (relation : String) (aliasName : Option String) :
    s.frame.selectFrom relation aliasName = (s.selectFrom relation aliasName).map frame := by
  unfold selectFrom
  by_cases hrefs : (! s.refs.isEmpty) = true
  · rw [if_pos hrefs, if_pos (show (! s.frame.refs.isEmpty) = true from hrefs)]
    rfl
  · rw [if_neg hrefs, if_neg (show ¬ (! s.frame.refs.isEmpty) = true from hrefs), frame_addRef]

theorem frame_join (s : Statement) (relation : String) (aliasName condition : Option String)
    (kind : String) :
    s.frame.join relation aliasName condition kind =
      (s.join relation aliasName condition kind).map frame := by
  unfold join
  by_cases hrefs : s.refs.isEmpty = true
  · rw [if_pos hrefs, if_pos (show s.frame.refs.isEmpty = true from hrefs)]
    rfl
  rw [if_neg hrefs, if_neg (show ¬ s.frame.refs.isEmpty = true from hrefs)]
  by_cases hkind : (! joinKinds.contains (Text.upper kind)) = true
  · rw [if_pos hkind, if_pos hkind]
    rfl
  rw [if_neg hkind, if_neg hkind]
  by_cases hcondition : Text.upper kind ≠ "CROSS" ∧ isMissing condition = true
  · rw [if_pos hcondition, if_pos hcondition]
    rfl
  · rw [if_neg hcondition, if_neg hcondition, frame_addRef]

/-- What an operation does to the frame depends on the frame alone. -/
theorem frame_apply (s : Statement) (op : Operation) :
    (s.apply op).1.frame = if op.isFraming then (s.frame.apply op).1 else s.frame := by
  have changed {next next' : Except StatementError Statement} (h : next' = next.map frame) :
      (s.change next).1.frame = (s.frame.change next').1 := by
    rw [h]
    cases next <;> rfl
  cases op with
  | selectFrom relation aliasName => exact changed (frame_selectFrom s relation aliasName)
  | join relation aliasName condition kind =>
    exact changed (frame_join s relation aliasName condition kind)
  | addColumns columns => rfl
  | addCondition fragment => rfl
  | addOrdering fragment => rfl
  | add aliasName node how => exact frame_updateSearch s aliasName _
  | setOption aliasName name value => exact frame_updateSearch s aliasName _
  | finalize => exact frame_finalize s
  | expressions settings =>
    exact (congrArg frame (fst_expressions s settings)).trans (frame_finalize s)
  | build settings =>
    refine (congrArg frame (fst_build s settings)).trans ?_
    by_cases none : s.refs.isEmpty = true
    · rw [if_pos none]
      rfl
    · rw [if_neg none]
      exact frame_finalize s

/-- So does its answer. -/
theorem answer_framing {op : Operation} (framing : op.isFraming = true) (s : Statement) :
    (s.apply op).2 = (s.frame.apply op).2 := by
  have changed {next next' : Except StatementError Statement} (h : next' = next.map frame) :
      (s.change next).2 = (s.frame.change next').2 := by
    rw [h]
    cases next <;> rfl
  cases op with
  | selectFrom relation aliasName => exact changed (frame_selectFrom s relation aliasName)
  | join relation aliasName condition kind =>
    exact changed (frame_join s relation aliasName condition kind)
  | addColumns columns => rfl
  | addCondition fragment => rfl
  | addOrdering fragment => rfl
  | _ => cases framing

theorem frame_run (s : Statement) (ops : List Operation) :
    (s.run ops).1.frame = (s.frame.run (ops.filter (·.isFraming))).1 := by
  induction ops generalizing s with
  | nil => rfl
  | cons op rest ih =>
    refine (ih (s.apply op).1).trans ?_
    rw [frame_apply, List.filter_cons]
    cases op.isFraming <;> rfl

theorem strategy_apply (s : Statement) (op : Operation) :
    (s.apply op).1.strategy = s.strategy := by
  have framed := congrArg Statement.strategy (frame_apply s op)
  have related (kind : op.isRelation = true) : (s.apply op).1.strategy = s.strategy := by
    rcases apply_relation kind with ht | ⟨ref, ht⟩ <;> rw [ht]
  cases op with
  | selectFrom relation aliasName => exact related rfl
  | join relation aliasName condition kind => exact related rfl
  | _ => exact framed

theorem strategy_run (s : Statement) (ops : List Operation) :
    (s.run ops).1.strategy = s.strategy := by
  induction ops generalizing s with
  | nil => rfl
  | cons op rest ih => exact (ih (s.apply op).1).trans (strategy_apply s op)

/-- A search stays bound as its alias says when a relation is added. -/
theorem binding?_apply {aliasName : String} {binding : Binding} (op : Operation)
    (h : s.binding? aliasName = some binding) :
    (s.apply op).1.binding? aliasName = some binding := by
  have framed := congrArg (fun frame => binding? frame aliasName) (frame_apply s op)
  have related (kind : op.isRelation = true) :
      (s.apply op).1.binding? aliasName = some binding := by
    rcases apply_relation kind with ht | ⟨ref, ht⟩
    · rw [ht]
      exact h
    · obtain ⟨other, hother, hbinding⟩ := Option.bind_eq_some_iff.mp h
      rw [ht]
      refine Option.bind_eq_some_iff.mpr ⟨other, ?_, hbinding⟩
      rw [ref?, List.find?_append, ← ref?, hother]
      rfl
  cases op with
  | selectFrom relation aliasName => exact related rfl
  | join relation aliasName condition kind => exact related rfl
  | _ => exact framed.trans h

end Statement

end SearchSql
