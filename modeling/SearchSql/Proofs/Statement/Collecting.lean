import Mathlib.Data.List.Nodup
import SearchSql.Proofs.Statement.Stepping

/-!
# What the searches of a statement collect

An operation on one alias changes the content of the search of that alias alone, and only if it
succeeds; one that fails may begin a search, but an empty one. So while a statement is open, the
content for an alias is what the successful operations on that alias have collected
(`collected_run`).
-/

namespace SearchSql

namespace Statement

/-- The operations of a run that have not failed. -/
def passed (ops : List Operation) (answers : List (Except StatementError Answer)) :
    List Operation :=
  ((ops.zip answers).filter fun (_, answer) => answer.isOk).map Prod.fst

/-- Those that have added something to the search of an alias. -/
def succeeded (aliasName : String) (ops : List Operation)
    (answers : List (Except StatementError Answer)) : List Operation :=
  (passed ops answers).filter (·.alias? = some aliasName)

theorem succeeded_cons (aliasName : String) (op : Operation) (ops : List Operation)
    (answer : Except StatementError Answer) (answers : List (Except StatementError Answer)) :
    succeeded aliasName (op :: ops) (answer :: answers) =
      (if op.alias? = some aliasName ∧ answer.isOk = true then [op] else []) ++
        succeeded aliasName ops answers := by
  rw [succeeded, passed, List.zip_cons_cons, List.filter_cons]
  by_cases ok : answer.isOk = true
  · rw [if_pos ok, List.map_cons, List.filter_cons]
    by_cases own : op.alias? = some aliasName
    · rw [if_pos (decide_eq_true own), if_pos ⟨own, ok⟩]
      rfl
    · rw [if_neg (by simpa using own), if_neg fun h => own h.1]
      rfl
  · rw [if_neg ok, if_neg fun h => ok h.2]
    rfl

/-- The content for an alias. There is none before its search is begun. -/
def content (s : Statement) (aliasName : String) : Content :=
  match s.search? aliasName with
  | some search => search.content
  | none => ⟨[], []⟩

/-- What holds while a statement is open: its searches are open, they are bound as their aliases
say and in the order of the bindings, and there is one for an alias at most. -/
structure Aligned (s : Statement) : Prop where
  trees : s.trees = none
  bindings : s.BindsSearches
  bound : ∀ search ∈ s.searches, s.binding? search.binding.aliasName = some search.binding
  nodup : s.searched.Nodup
  opened : ∀ search ∈ s.searches, search.closed = none

variable {s s' : Statement}

/-- What has a name of its own is found by it. -/
theorem find?_of_mem {α : Type} (name : α → String) {xs : List α} (nodup : (xs.map name).Nodup)
    {x : α} (hx : x ∈ xs) : xs.find? (name · = name x) = some x := by
  induction xs with
  | nil => cases hx
  | cons first rest ih =>
    obtain ⟨apart, nodup⟩ := List.nodup_cons.mp nodup
    rcases List.mem_cons.mp hx with rfl | hx
    · exact List.find?_cons_of_pos (by simp)
    · have other : name first ≠ name x := by
        intro same
        exact apart (List.mem_map.mpr ⟨x, hx, same.symm⟩)
      rw [List.find?_cons_of_neg (by simpa using other)]
      exact ih nodup hx

theorem Aligned.search?_of_mem (h : s.Aligned) {search : Search} (hs : search ∈ s.searches) :
    s.search? search.binding.aliasName = some search :=
  find?_of_mem (fun search : Search => search.binding.aliasName) h.nodup hs

/-- A search is determined by its binding and its content. -/
theorem Aligned.eq_fill (h : s.Aligned) {aliasName : String} {search : Search}
    (hs : s.search? aliasName = some search) :
    ∃ binding, s.binding? aliasName = some binding ∧
      search = (Search.ofBinding binding).fill (s.content aliasName) := by
  obtain ⟨hmem, rfl⟩ := search?_eq_some hs
  refine ⟨search.binding, h.bound search hmem, ?_⟩
  have opened := h.opened search hmem
  rw [content, hs]
  cases search
  cases opened
  rfl

theorem aliasName_of_binding {aliasName : String} {binding : Binding}
    (h : s.binding? aliasName = some binding) : binding.aliasName = aliasName := by
  obtain ⟨ref, -, hbinding⟩ := Option.bind_eq_some_iff.mp h
  unfold Binding.ofRegistry at hbinding
  cases hindex : s.registry.get? ref.relation with
  | none =>
    rw [hindex] at hbinding
    cases hbinding
  | some index =>
    rw [hindex] at hbinding
    cases hbinding
    rfl

/-- What is begun is empty, so no content has changed. -/
theorem Aligned.beginSearch (h : s.Aligned) {aliasName : String} {search : Search}
    (hbegin : s.beginSearch aliasName = .ok (s', search)) :
    s'.Aligned ∧ s'.search? aliasName = some search ∧ ∀ b, s'.content b = s.content b := by
  rcases beginSearch_cases h.bindings hbegin with
    ⟨hfound, rfl⟩ | ⟨hnew, binding, hbinding, rfl, rfl⟩
  · exact ⟨h, hfound, fun _ => rfl⟩
  have name := aliasName_of_binding hbinding
  have found (b : String) :
      (s.withEmpty binding).search? b =
        (s.search? b).or (if aliasName = b then some (Search.ofBinding binding) else none) := by
    rw [search?, Statement.withEmpty, List.find?_append, ← search?]
    simp [List.find?_singleton, Search.ofBinding, name]
  refine ⟨⟨h.trees, h.bindings.withEmpty binding, ?_, ?_, ?_⟩, ?_, ?_⟩
  · refine List.forall_mem_append.mpr ⟨h.bound, List.forall_mem_singleton.mpr ?_⟩
    exact (congrArg s.binding? name).trans hbinding
  · rw [searched, Statement.withEmpty, List.map_append, List.nodup_append]
    refine ⟨h.nodup, List.nodup_singleton _, ?_⟩
    intro a ha b hb same
    obtain ⟨other, hother, rfl⟩ := List.mem_map.mp ha
    cases List.mem_singleton.mp hb
    have alias_eq : other.binding.aliasName = aliasName := same.trans name
    have begun := h.search?_of_mem hother
    rw [alias_eq, hnew] at begun
    cases begun
  · exact List.forall_mem_append.mpr ⟨h.opened, List.forall_mem_singleton.mpr rfl⟩
  · rw [found, hnew]
    simp
  · intro b
    rw [content, content, found]
    cases s.search? b with
    | some other => rfl
    | none =>
      by_cases same : aliasName = b
      · rw [if_pos same]
        rfl
      · rw [if_neg same]
        rfl

/-- The search of one alias has another content, and nothing else is changed. -/
theorem Aligned.putSearch (h : s.Aligned) {search : Search} (c : Content)
    (hs : s.search? search.binding.aliasName = some search) :
    (s.putSearch (search.fill c)).Aligned ∧ ∀ b, (s.putSearch (search.fill c)).content b =
      if search.binding.aliasName = b then c else s.content b := by
  obtain ⟨hmem, -⟩ := search?_eq_some hs
  have found (b : String) : (s.putSearch (search.fill c)).search? b =
      (s.search? b).map fun t =>
        if t.binding.aliasName = search.binding.aliasName then search.fill c else t := by
    rw [Statement.putSearch, search?, List.find?_map]
    congr 1
    rw [search?]
    congr 1
    funext t
    by_cases same : t.binding.aliasName = search.binding.aliasName
    · simp [same]
    · simp [same]
  have each {P : Search → Prop} (hsearch : P (search.fill c)) (hP : ∀ t ∈ s.searches, P t) :
      ∀ t ∈ (s.putSearch (search.fill c)).searches, P t := by
    intro t ht
    obtain ⟨u, hu, rfl⟩ := List.mem_map.mp ht
    by_cases same : u.binding.aliasName = (search.fill c).binding.aliasName
    · rw [if_pos same]
      exact hsearch
    · rw [if_neg same]
      exact hP u hu
  have bindings : (s.putSearch (search.fill c)).searches.map (·.binding) =
      s.searches.map (·.binding) := by
    rw [Statement.putSearch, List.map_map]
    refine List.map_congr_left fun t ht => ?_
    by_cases same : t.binding.aliasName = search.binding.aliasName
    · have own : t = search := by
        have found := h.search?_of_mem ht
        rw [same, hs] at found
        exact (Option.some.inj found).symm
      simp [own]
    · simp [same]
  refine ⟨⟨h.trees, h.bindings.trans bindings.symm, ?_, ?_, ?_⟩, ?_⟩
  · exact each (P := fun t => s.binding? t.binding.aliasName = some t.binding)
      (h.bound search hmem) h.bound
  · exact (congrArg List.Nodup (searched_putSearch s (search.fill c))).mpr h.nodup
  · exact each (h.opened search hmem) h.opened
  · intro b
    rw [content, found]
    by_cases same : search.binding.aliasName = b
    · rw [if_pos same, ← same, hs]
      simp
    · rw [if_neg same, content]
      cases ht : s.search? b with
      | none => rfl
      | some t =>
        have other : t.binding.aliasName ≠ search.binding.aliasName := by
          rw [(search?_eq_some ht).2]
          exact Ne.symm same
        simp [other]

/-! ## Operations -/

/-- What an operation that leaves the statement open changes: the content for its own alias. -/
structure Changes (s : Statement) (op : Operation) (s' : Statement)
    (result : Except StatementError Answer) : Prop where
  aligned : s'.Aligned
  content : ∀ b, s'.content b =
    if op.alias? = some b ∧ result.isOk = true then op.collect (s.content b) else s.content b

theorem Aligned.changes_searching (h : s.Aligned) {op : Operation} {aliasName : String}
    (named : op.alias? = some aliasName) : s.Changes op (s.apply op).1 (s.apply op).2 := by
  rcases apply_searching named s with ⟨e, -, ht⟩ | ⟨t, search, hbegin, ⟨e, ht⟩ | ⟨ht, -⟩⟩
  · rw [ht]
    exact ⟨h, fun b => by simp [Except.isOk, Except.toBool]⟩
  · obtain ⟨aligned, -, contents⟩ := h.beginSearch hbegin
    rw [ht]
    exact ⟨aligned, fun b => by simp [Except.isOk, Except.toBool, contents]⟩
  · obtain ⟨aligned, found, contents⟩ := h.beginSearch hbegin
    obtain ⟨-, name⟩ := search?_eq_some found
    obtain ⟨aligned', contents'⟩ :=
      aligned.putSearch (op.collect search.content) (by rw [name]; exact found)
    rw [ht]
    refine ⟨aligned', ?_⟩
    intro b
    rw [contents' b, name, named]
    by_cases same : aliasName = b
    · have own : s.content b = search.content := by
        rw [← contents b, content, ← same, found]
      simp [same, own, Except.isOk, Except.toBool]
    · simp [same, contents]

theorem Aligned.changes_foreign (h : s.Aligned) {op : Operation} (foreign : op.alias? = none)
    (stays : (s.apply op).1.trees = none) : s.Changes op (s.apply op).1 (s.apply op).2 := by
  have kept : (s.apply op).1.searches = s.searches := by
    rcases apply_foreign foreign s with ht | ⟨-, kept⟩
    · rw [ht] at stays ⊢
      rw [finalize_open stays]
    · exact kept
  have same : (s.apply op).1.searched = s.searched := by rw [searched, kept, ← searched]
  constructor
  · refine ⟨stays, ?_, ?_, same ▸ h.nodup, ?_⟩
    · rw [BindsSearches, bindings_apply foreign, kept]
      exact h.bindings
    · rw [kept]
      intro search hs
      exact binding?_apply op (h.bound search hs)
    · rw [kept]
      exact h.opened
  · intro b
    rw [foreign, if_neg fun own => (Option.some_ne_none b).symm own.1, content, content, search?,
      search?, kept]

theorem Aligned.changes_apply (h : s.Aligned) {op : Operation}
    (stays : (s.apply op).1.trees = none) :
    s.Changes op (s.apply op).1 (s.apply op).2 := by
  cases named : op.alias? with
  | none => exact h.changes_foreign named stays
  | some aliasName => exact h.changes_searching named

/-- After a run that has left the statement open, the content for each alias is what the operations
on that alias have collected. -/
theorem Aligned.collected_run (h : s.Aligned) {ops : List Operation}
    (stays : (s.run ops).1.trees = none) :
    (s.run ops).1.Aligned ∧ ∀ b, (s.run ops).1.content b =
      (succeeded b ops (s.run ops).2).foldl Operation.collect (s.content b) := by
  induction ops generalizing s with
  | nil => exact ⟨h, fun _ => rfl⟩
  | cons op rest ih =>
    have stays' : ((s.apply op).1.run rest).1.trees = none := stays
    have change := h.changes_apply (trees_run stays')
    obtain ⟨aligned, contents⟩ := ih change.aligned stays'
    refine ⟨aligned, ?_⟩
    intro b
    refine (contents b).trans ?_
    rw [change.content b]
    have split : succeeded b (op :: rest) (s.run (op :: rest)).2 =
        (if op.alias? = some b ∧ (s.apply op).2.isOk = true then [op] else []) ++
          succeeded b rest ((s.apply op).1.run rest).2 := succeeded_cons b op rest _ _
    rw [split, List.foldl_append]
    by_cases own : op.alias? = some b ∧ (s.apply op).2.isOk = true
    · rw [if_pos own, if_pos own]
      rfl
    · rw [if_neg own, if_neg own]
      rfl

theorem aligned_new (registry : Registry) (strategy : FoldStrategy) :
    (new registry strategy).Aligned :=
  ⟨rfl, rfl, List.forall_mem_nil _, List.nodup_nil, List.forall_mem_nil _⟩

end Statement

end SearchSql
