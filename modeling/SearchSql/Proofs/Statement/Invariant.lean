import SearchSql.Proofs.Search.Invariant
import SearchSql.Statement.Run

/-!
# The invariant of a statement

Whatever operations are carried out on a statement, each of its searches keeps the invariant of a
search, and so does every tree it has been finalized to (`invariant_run`).
-/

namespace SearchSql

/-- An alias is bound already, or it is bound to the index of its relation. -/
theorem Bindings.bind_eq_ok {bindings bindings' : Bindings} {aliasName relation : String}
    {binding : Binding} (h : bindings.bind aliasName relation = .ok (bindings', binding)) :
    bindings'.registry = bindings.registry ∧ binding.aliasName = aliasName ∧
      (binding ∈ bindings.bound ∨ binding.index ∈ bindings.registry.indexes) ∧
      (bindings' = bindings ∨ bindings' = bindings.add binding) := by
  cases known : bindings.bound.find? (·.aliasName = aliasName) with
  | some other =>
    have named : other.aliasName = aliasName := by simpa using List.find?_some known
    simp only [bind, known] at h
    split at h
    · cases h
      exact ⟨rfl, named, Or.inl (List.mem_of_find?_eq_some known), Or.inl rfl⟩
    · cases h
  | none =>
    rw [bind_new known] at h
    obtain ⟨other, found, same⟩ := Except.map_eq_ok.mp h
    cases same
    unfold Binding.ofRegistry at found
    split at found
    · next index hindex =>
      cases found
      exact ⟨rfl, rfl, Or.inr (List.mem_of_find?_eq_some hindex), Or.inr rfl⟩
    · cases found

namespace Statement

/-! ## What the operations do -/

variable {s s' : Statement}

theorem addRef_eq_ok {ref : RelationRef} (h : s.addRef ref = .ok s') :
    s' = { s with refs := s.refs ++ [ref] } := by
  obtain ⟨-, -, h⟩ := Except.bind_eq_ok.mp h
  obtain ⟨-, -, h⟩ := Except.bind_eq_ok.mp h
  cases hother : s.ref? ref.aliasName with
  | some other =>
    simp only [hother] at h
    cases h
  | none =>
    simp only [hother] at h
    cases h
    rfl

/-- Setting and joining relations adds one, and changes nothing else. -/
theorem selectFrom_eq_ok {relation : String} {aliasName : Option String}
    (h : s.selectFrom relation aliasName = .ok s') :
    ∃ ref, s' = { s with refs := s.refs ++ [ref] } := by
  unfold selectFrom at h
  by_cases hrefs : (! s.refs.isEmpty) = true
  · rw [if_pos hrefs] at h
    cases h
  · rw [if_neg hrefs] at h
    exact ⟨_, addRef_eq_ok h⟩

theorem join_eq_ok {relation kind : String} {aliasName condition : Option String}
    (h : s.join relation aliasName condition kind = .ok s') :
    ∃ ref, s' = { s with refs := s.refs ++ [ref] } := by
  unfold join at h
  by_cases hrefs : s.refs.isEmpty = true
  · rw [if_pos hrefs] at h
    cases h
  rw [if_neg hrefs] at h
  by_cases hkind : (! joinKinds.contains (Text.upper kind)) = true
  · rw [if_pos hkind] at h
    cases h
  rw [if_neg hkind] at h
  by_cases hcondition : Text.upper kind ≠ "CROSS" ∧ isMissing condition = true
  · rw [if_pos hcondition] at h
    cases h
  · rw [if_neg hcondition] at h
    exact ⟨_, addRef_eq_ok h⟩

/-- The search is one that was begun before, or its alias is bound and it is begun. -/
theorem beginSearch_eq_ok {aliasName : String} {search : Search}
    (h : s.beginSearch aliasName = .ok (s', search)) :
    s.trees = none ∧ ((s.search? aliasName = some search ∧ s' = s) ∨
      s.search? aliasName = none ∧ ∃ ref bindings binding, s.ref? aliasName = some ref ∧
        s.bindings.bind aliasName ref.relation = .ok (bindings, binding) ∧
        search = Search.ofBinding binding ∧
        s' = { s with bindings, searches := s.searches ++ [search] }) := by
  unfold beginSearch at h
  by_cases hopen : s.isFinalized = true
  · rw [if_pos hopen] at h
    cases h
  rw [if_neg hopen] at h
  refine ⟨by simpa [isFinalized] using hopen, ?_⟩
  cases hfound : s.search? aliasName with
  | some found =>
    simp only [hfound] at h
    cases h
    exact Or.inl ⟨rfl, rfl⟩
  | none =>
    cases href : s.ref? aliasName with
    | none =>
      simp only [hfound, href] at h
      cases h
    | some ref =>
      cases hbind : s.bindings.bind aliasName ref.relation with
      | error e =>
        simp only [hfound, href, hbind] at h
        cases h
      | ok bound =>
        obtain ⟨bindings, binding⟩ := bound
        simp only [hfound, href, hbind] at h
        cases h
        exact Or.inr ⟨rfl, ref, bindings, binding, rfl, hbind, rfl, rfl⟩

theorem finalizeSearches_cons {strategy : FoldStrategy} {search : Search}
    {rest searches : List Search} {trees : List SearchTree}
    (h : finalizeSearches strategy (search :: rest) = (searches, .ok trees)) :
    ∃ search' tree searches' trees', search.finalize (.text strategy.name) = .ok (search', tree) ∧
      finalizeSearches strategy rest = (searches', .ok trees') ∧
      searches = search' :: searches' ∧ trees = tree.toList ++ trees' := by
  unfold finalizeSearches at h
  cases hone : search.finalize (.text strategy.name) with
  | error e =>
    simp only [hone] at h
    cases h
  | ok one =>
    obtain ⟨search', tree⟩ := one
    simp only [hone] at h
    obtain ⟨hsearches, htrees⟩ := Prod.mk.inj h
    obtain ⟨trees', hrest, rfl⟩ := Except.map_eq_ok.mp htrees
    exact ⟨search', tree, _, trees', rfl, Prod.ext rfl hrest, hsearches.symm, rfl⟩

/-- Once all searches are validated, nothing can keep them from being finalized. -/
theorem exists_finalizeSearches {searches : List Search} (strategy : FoldStrategy)
    (valid : ∀ search ∈ searches, search.validate = .ok ()) :
    ∃ closed trees, finalizeSearches strategy searches = (closed, .ok trees) := by
  induction searches with
  | nil => exact ⟨[], [], rfl⟩
  | cons search rest ih =>
    obtain ⟨valid, later⟩ := List.forall_mem_cons.mp valid
    obtain ⟨search', tree, hone⟩ := Search.exists_finalize valid strategy
    obtain ⟨closed, trees, hrest⟩ := ih later
    refine ⟨search' :: closed, tree.toList ++ trees, ?_⟩
    rw [finalizeSearches, hone, hrest]
    rfl

/-- An open statement is finalized by finalizing its searches; a closed one stays as it is. -/
theorem finalize_eq_ok {trees : List SearchTree} (h : s.finalize = (s', .ok trees)) :
    (s.trees = some trees ∧ s' = s) ∨
    (s.trees = none ∧ ∃ searches, finalizeSearches s.strategy s.searches = (searches, .ok trees) ∧
      s' = { s with searches, trees := some trees }) := by
  unfold finalize at h
  cases ht : s.trees with
  | some trees =>
    simp only [ht] at h
    cases h
    exact Or.inl ⟨rfl, rfl⟩
  | none =>
    simp only [ht] at h
    split at h
    · cases h
    · split at h
      · cases h
      · next searches trees closing =>
        cases h
        exact Or.inr ⟨rfl, searches, closing, rfl⟩

theorem trees_of_finalize {trees : List SearchTree} (h : s.finalize = (s', .ok trees)) :
    s'.trees = some trees := by
  rcases finalize_eq_ok h with ⟨ht, rfl⟩ | ⟨-, searches, -, rfl⟩
  · exact ht
  · rfl

/-- Only validation fails, and it closes nothing. -/
theorem finalize_eq_error {e : StatementError} (h : s.finalize = (s', .error e)) : s' = s := by
  unfold finalize at h
  cases ht : s.trees with
  | some trees =>
    simp only [ht] at h
    cases h
  | none =>
    simp only [ht] at h
    cases hv : s.searches.forM Search.validate with
    | error e =>
      simp only [hv] at h
      cases h
      rfl
    | ok u =>
      obtain ⟨closed, trees, hclosed⟩ :=
        exists_finalizeSearches s.strategy (Except.forM_eq_ok.mp hv)
      simp only [hv, hclosed] at h
      cases h

/-! ## The invariant -/

/-- The predicate that an operation adds, if it succeeds. -/
def Operation.added (op : Operation) (answer : Except StatementError Answer) :
    List (Predicate Value) :=
  match op with
  | .add _ node _ => match answer with
    | .ok _ => node.predicates
    | .error _ => []
  | _ => []

/-- The predicates that the operations of a run have added, given their answers. -/
def addedBy (ops : List Operation) (answers : List (Except StatementError Answer)) :
    List (Predicate Value) :=
  (ops.zip answers).flatMap fun (op, answer) => op.added answer

structure Invariant (registry : Registry) (added : List (Predicate Value)) (s : Statement) :
    Prop where
  base : s.registry = registry
  bound : ∀ binding ∈ s.bindings.bound, binding.index ∈ registry.indexes
  searches : ∀ search ∈ s.searches, search.Invariant registry.indexes added
  trees : ∀ trees, s.trees = some trees → ∀ tree ∈ trees, tree.Invariant registry.indexes added

namespace Invariant

variable {registry : Registry} {added added' : List (Predicate Value)}

theorem initial (registry : Registry) (strategy : FoldStrategy) :
    (Statement.new registry strategy).Invariant registry [] where
  base := rfl
  bound _ hb := nomatch hb
  searches _ hs := nomatch hs
  trees _ ht := nomatch ht

theorem mono (h : s.Invariant registry added) (more : added ⊆ added') :
    s.Invariant registry added' := by
  refine { h with searches := ?_, trees := ?_ }
  · intro search hs
    exact (h.searches search hs).mono more
  · intro trees ht tree hmem
    exact (h.trees trees ht tree hmem).mono more

theorem preserve_change (h : s.Invariant registry added) {next : Except StatementError Statement}
    (hnext : ∀ s', next = .ok s' → ∃ ref, s' = { s with refs := s.refs ++ [ref] }) :
    (s.change next).1.Invariant registry added := by
  cases next with
  | error e => exact h
  | ok s' =>
    obtain ⟨ref, rfl⟩ := hnext s' rfl
    exact { h with }

theorem preserve_beginSearch (h : s.Invariant registry added) {aliasName : String}
    {search : Search} (hbegin : s.beginSearch aliasName = .ok (s', search)) :
    s'.Invariant registry added ∧ search.Invariant registry.indexes added := by
  obtain ⟨-, ⟨found, rfl⟩ | ⟨-, ref, bindings, binding, -, hbind, rfl, rfl⟩⟩ :=
    beginSearch_eq_ok hbegin
  · exact ⟨h, h.searches search (List.mem_of_find?_eq_some found)⟩
  · obtain ⟨kept, -, index, grown⟩ := Bindings.bind_eq_ok hbind
    have hindex : binding.index ∈ registry.indexes := by
      rcases index with known | new
      · exact h.bound binding known
      · exact h.base ▸ new
    have begun := @Search.Invariant.initial _ added binding hindex
    refine ⟨{ h with base := kept.trans h.base, bound := ?_, searches := ?_ }, begun⟩
    · rcases grown with rfl | rfl
      · exact h.bound
      · exact List.forall_mem_append.mpr ⟨h.bound, List.forall_mem_singleton.mpr hindex⟩
    · exact List.forall_mem_append.mpr ⟨h.searches, List.forall_mem_singleton.mpr begun⟩

theorem preserve_putSearch (h : s.Invariant registry added) {search : Search}
    (hs : search.Invariant registry.indexes added) :
    (s.putSearch search).Invariant registry added := by
  refine { h with searches := ?_ }
  intro t ht
  obtain ⟨u, hu, rfl⟩ := List.mem_map.mp ht
  by_cases same : u.binding.aliasName = search.binding.aliasName
  · rw [if_pos same]
    exact hs
  · rw [if_neg same]
    exact h.searches u hu

/-- A search may be changed by anything that keeps its own invariant. -/
theorem preserve_updateSearch (h : s.Invariant registry added) (aliasName : String)
    {update : Search → Except SearchError Search} (more : added ⊆ added')
    (hupdate : ∀ t t', t.Invariant registry.indexes added → update t = .ok t' →
      t'.Invariant registry.indexes added') :
    ((∃ e, (s.updateSearch aliasName update).2 = .error e) ∧
      (s.updateSearch aliasName update).1.Invariant registry added) ∨
    ((s.updateSearch aliasName update).2 = .ok () ∧
      (s.updateSearch aliasName update).1.Invariant registry added') := by
  unfold updateSearch
  cases hb : s.beginSearch aliasName with
  | error e => exact Or.inl ⟨⟨e, rfl⟩, h⟩
  | ok begun =>
    obtain ⟨s', search⟩ := begun
    obtain ⟨hs', hsearch⟩ := h.preserve_beginSearch hb
    cases hu : update search with
    | error e =>
      simp only [hu]
      exact Or.inl ⟨⟨_, rfl⟩, hs'⟩
    | ok search' =>
      simp only [hu]
      exact Or.inr ⟨trivial, (hs'.mono more).preserve_putSearch (hupdate search search' hsearch hu)⟩

theorem preserve_add (h : s.Invariant registry added) (aliasName : String) (node how : Value) :
    (s.apply (.add aliasName node how)).1.Invariant registry
      (added ++ Operation.added (.add aliasName node how)
        (s.apply (.add aliasName node how)).2) := by
  have update : ∀ t t' : Search, t.Invariant registry.indexes added → t.add node how = .ok t' →
      t'.Invariant registry.indexes (added ++ node.predicates) := by
    intro t t' ht hadd
    exact ht.preserve_add hadd
  rcases h.preserve_updateSearch aliasName (List.subset_append_left added _) update with
    ⟨⟨e, he⟩, kept⟩ | ⟨hok, grown⟩
  · exact kept.mono (List.subset_append_left added _)
  · have answered : (s.apply (.add aliasName node how)).2 = .ok .done :=
      congrArg (Except.map fun _ => Answer.done) hok
    rw [answered]
    exact grown

theorem preserve_setOption (h : s.Invariant registry added) (aliasName : String)
    (name value : Value) : (s.setOption aliasName name value).1.Invariant registry added := by
  have update : ∀ t t' : Search, t.Invariant registry.indexes added →
      t.setOption name value = .ok t' → t'.Invariant registry.indexes added := by
    intro t t' ht hset
    exact ht.preserve_setOption hset
  rcases h.preserve_updateSearch aliasName (List.Subset.refl added) update with
    ⟨-, kept⟩ | ⟨-, kept⟩
  · exact kept
  · exact kept

theorem of_finalizeSearches {indexes : List SearchIndex} {strategy : FoldStrategy}
    {searches searches' : List Search} {trees : List SearchTree}
    (h : ∀ search ∈ searches, search.Invariant indexes added)
    (hf : finalizeSearches strategy searches = (searches', .ok trees)) :
    (∀ search ∈ searches', search.Invariant indexes added) ∧
      ∀ tree ∈ trees, tree.Invariant indexes added := by
  induction searches generalizing searches' trees with
  | nil =>
    cases hf
    exact ⟨List.forall_mem_nil _, List.forall_mem_nil _⟩
  | cons search rest ih =>
    obtain ⟨search', tree, searches', trees', hone, hrest, rfl, rfl⟩ := finalizeSearches_cons hf
    obtain ⟨hsearch, htree⟩ := (h search List.mem_cons_self).preserve_finalize hone
    obtain ⟨hsearches, htrees⟩ := ih (fun t ht => h t (List.mem_cons_of_mem _ ht)) hrest
    refine ⟨List.forall_mem_cons.mpr ⟨hsearch, hsearches⟩, ?_⟩
    refine List.forall_mem_append.mpr ⟨?_, htrees⟩
    intro t ht
    exact htree t (Option.mem_toList.mp ht)

theorem preserve_finalize (h : s.Invariant registry added) :
    s.finalize.1.Invariant registry added := by
  cases hf : s.finalize with
  | mk s' result =>
    cases result with
    | error e =>
      rw [finalize_eq_error hf]
      exact h
    | ok trees =>
      rcases finalize_eq_ok hf with ⟨-, rfl⟩ | ⟨-, searches, hclosed, rfl⟩
      · exact h
      · obtain ⟨hsearches, htrees⟩ := of_finalizeSearches h.searches hclosed
        refine ⟨h.base, h.bound, hsearches, ?_⟩
        rintro trees' ⟨⟩
        exact htrees

theorem tree_of_finalize (h : s.Invariant registry added) {trees : List SearchTree}
    (hf : s.finalize = (s', .ok trees)) :
    ∀ tree ∈ trees, tree.Invariant registry.indexes added := by
  have finalized := h.preserve_finalize
  rw [hf] at finalized
  exact finalized.trees trees (trees_of_finalize hf)

theorem preserve_expressions (h : s.Invariant registry added) (settings : Settings) :
    (s.expressions settings).1.Invariant registry added := by
  have finalized := h.preserve_finalize
  unfold expressions
  split
  · next hf => rwa [hf] at finalized
  · next hf => rwa [hf] at finalized

theorem preserve_build (h : s.Invariant registry added) (settings : Settings) :
    (s.build settings).1.Invariant registry added := by
  have emitted := h.preserve_expressions settings
  unfold build
  split
  · exact h
  · split
    · next he => rwa [he] at emitted
    · next he => rwa [he] at emitted

theorem preserve_apply (h : s.Invariant registry added) (op : Operation) :
    (s.apply op).1.Invariant registry (added ++ op.added (s.apply op).2) := by
  have same {t : Statement} (ht : t.Invariant registry added) :
      t.Invariant registry (added ++ []) := by
    rw [List.append_nil]
    exact ht
  cases op with
  | add aliasName node how => exact h.preserve_add aliasName node how
  | selectFrom relation aliasName =>
    exact same (h.preserve_change fun _ hnext => selectFrom_eq_ok hnext)
  | join relation aliasName condition kind =>
    exact same (h.preserve_change fun _ hnext => join_eq_ok hnext)
  | addColumns columns => exact same { h with }
  | addCondition fragment => exact same { h with }
  | addOrdering fragment => exact same { h with }
  | setOption aliasName name value => exact same (h.preserve_setOption aliasName name value)
  | finalize => exact same h.preserve_finalize
  | expressions settings => exact same (h.preserve_expressions settings)
  | build settings => exact same (h.preserve_build settings)

theorem preserve_run (h : s.Invariant registry added) (ops : List Operation) :
    (s.run ops).1.Invariant registry (added ++ addedBy ops (s.run ops).2) := by
  -- What the first operation has added counts as added for all that follow.
  induction ops generalizing s added with
  | nil =>
    rw [addedBy, List.zip_nil_left, List.flatMap_nil, List.append_nil]
    exact h
  | cons op rest ih =>
    have later := ih (h.preserve_apply op)
    rw [List.append_assoc] at later
    exact later

end Invariant

/-- Every statement that can be reached satisfies the invariant. -/
theorem invariant_run (registry : Registry) (strategy : FoldStrategy) (ops : List Operation) :
    ((new registry strategy).run ops).1.Invariant registry
      (addedBy ops ((new registry strategy).run ops).2) :=
  (Invariant.initial registry strategy).preserve_run ops

end Statement

end SearchSql
