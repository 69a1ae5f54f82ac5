import SearchSql.Proofs.Statement.Calls
import SearchSql.Proofs.Statement.Closing

/-!
# The order of the searches

The calls of a statement come in the order in which their searches were begun. A search is begun by
the first operation that reaches it, be it an option or a predicate that is refused, so this order
is read off the history of what was reached (`expressions_in_order`). It is the order of the first
predicates as long as every search that gets a predicate is begun by its first one.
-/

namespace SearchSql

namespace Statement

/-- An operation has reached the search of an alias, and has or has not added a predicate to it. -/
structure Reach where
  aliasName : String
  added : Bool
  deriving DecidableEq, Repr

/-- What an operation with a given answer has reached. Only the search itself refuses with an error
of a search, so such an answer tells that there was one, or that it was begun. -/
def Operation.reach? (op : Operation) (answer : Except StatementError Answer) : Option Reach :=
  match op.alias?, answer with
  | some aliasName, .ok _ => some ⟨aliasName, op.isAdd⟩
  | some aliasName, .error (.search _) => some ⟨aliasName, false⟩
  | _, _ => none

def reaches (ops : List Operation) (answers : List (Except StatementError Answer)) : List Reach :=
  (ops.zip answers).filterMap fun (op, answer) => op.reach? answer

/-- The aliases that were reached, each at its first place. -/
def firstReached (history : List Reach) : List String := (history.map (·.aliasName)).eraseDups

/-- The aliases that have got a predicate, each at the place of its first one. -/
def firstPredicates (history : List Reach) : List String :=
  ((history.filter (·.added)).map (·.aliasName)).eraseDups

/-! ## Histories -/

variable {history : List Reach}

theorem reaches_cons (op : Operation) (ops : List Operation)
    (answer : Except StatementError Answer) (answers : List (Except StatementError Answer)) :
    reaches (op :: ops) (answer :: answers) =
      (op.reach? answer).toList ++ reaches ops answers := by
  rw [reaches, List.zip_cons_cons, List.filterMap_cons]
  cases hr : op.reach? answer <;> simp only [hr] <;> rfl

theorem eraseDups_concat (names : List String) (name : String) :
    (names ++ [name]).eraseDups =
      if name ∈ names then names.eraseDups else names.eraseDups ++ [name] := by
  rw [List.eraseDups_append, List.removeAll]
  by_cases known : name ∈ names
  · simp [known]
  · have alone : [name].eraseDups = [name] := by rw [List.eraseDups_cons]; rfl
    simp [known, alone]

theorem firstReached_concat (history : List Reach) (r : Reach) :
    firstReached (history ++ [r]) =
      if r.aliasName ∈ firstReached history then firstReached history
      else firstReached history ++ [r.aliasName] := by
  rw [firstReached, List.map_append, List.map_singleton, eraseDups_concat]
  simp [firstReached, List.mem_eraseDups]

theorem firstPredicates_concat (history : List Reach) (r : Reach) :
    firstPredicates (history ++ [r]) =
      if r.added = true ∧ r.aliasName ∉ firstPredicates history
      then firstPredicates history ++ [r.aliasName] else firstPredicates history := by
  rw [firstPredicates, List.filter_append]
  cases hadded : r.added with
  | false => simp [firstPredicates, hadded]
  | true =>
    rw [List.filter_cons_of_pos hadded, List.filter_nil, List.map_append, List.map_singleton,
      eraseDups_concat]
    by_cases known : r.aliasName ∈ firstPredicates history
    · rw [if_pos (List.mem_eraseDups.mp known), if_neg (fun h => h.2 known)]
      rfl
    · rw [if_neg (fun h => known (List.mem_eraseDups.mpr h)), if_pos ⟨rfl, known⟩]
      rfl

theorem mem_firstPredicates_concat {history : List Reach} {r : Reach} {name : String} :
    name ∈ firstPredicates (history ++ [r]) ↔
      name ∈ firstPredicates history ∨ (r.added = true ∧ name = r.aliasName) := by
  rw [firstPredicates_concat]
  by_cases fresh : r.added = true ∧ r.aliasName ∉ firstPredicates history
  · rw [if_pos fresh]
    simp [fresh.1]
  · rw [if_neg fresh]
    constructor
    · exact Or.inl
    · rintro (known | ⟨added, rfl⟩)
      · exact known
      · by_contra unknown
        exact fresh ⟨added, unknown⟩

theorem mem_firstReached_of_predicate {name : String} (h : name ∈ firstPredicates history) :
    name ∈ firstReached history := by
  obtain ⟨r, hr, rfl⟩ := List.mem_map.mp (List.mem_eraseDups.mp h)
  exact List.mem_eraseDups.mpr (List.mem_map.mpr ⟨r, (List.mem_filter.mp hr).1, rfl⟩)

theorem nodup_firstReached (history : List Reach) : (firstReached history).Nodup := by
  induction history using List.reverseRecOn with
  | nil => exact List.nodup_nil
  | append_singleton history r ih =>
    rw [firstReached_concat]
    by_cases known : r.aliasName ∈ firstReached history
    · rw [if_pos known]
      exact ih
    · rw [if_neg known]
      rw [← List.concat_eq_append]
      exact ih.concat known

/-- The searches that have predicates, in the order in which they were begun. -/
def order (history : List Reach) : List String :=
  (firstReached history).filter (· ∈ firstPredicates history)

theorem filter_mem_of_sublist {names all : List String} (h : names.Sublist all)
    (nodup : all.Nodup) : all.filter (· ∈ names) = names := by
  induction h with
  | slnil => rfl
  | @cons names all name h ih =>
    obtain ⟨apart, nodup⟩ := List.nodup_cons.mp nodup
    have absent : name ∉ names := fun hname => apart (h.subset hname)
    rw [List.filter_cons_of_neg (by simpa using absent), ih nodup]
  | @cons_cons names all name h ih =>
    obtain ⟨apart, nodup⟩ := List.nodup_cons.mp nodup
    rw [List.filter_cons_of_pos (by simp)]
    congr 1
    refine Eq.trans (List.filter_congr fun other hother => ?_) (ih nodup)
    have differs : other ≠ name := by
      rintro rfl
      exact apart hother
    simp [differs]

/-- The order is that of the first predicates exactly if the searches were begun in that order. -/
theorem order_eq_iff :
    order history = firstPredicates history ↔
      (firstPredicates history).Sublist (firstReached history) := by
  constructor
  · intro same
    rw [← same]
    exact List.filter_sublist
  · intro sub
    exact filter_mem_of_sublist sub (nodup_firstReached history)

/-- Every search that gets a predicate is begun by its first one. -/
def Prompt (history : List Reach) : Prop :=
  ∀ name ∈ firstPredicates history,
    history.find? (·.aliasName = name) = some ⟨name, true⟩

theorem Prompt.of_concat {r : Reach} (h : Prompt (history ++ [r])) : Prompt history := by
  intro name hname
  have first := h name (mem_firstPredicates_concat.mpr (Or.inl hname))
  rw [List.find?_append] at first
  cases found : history.find? (·.aliasName = name) with
  | some other =>
    rw [found] at first
    exact first
  | none =>
    have reached := mem_firstReached_of_predicate hname
    obtain ⟨other, hother, same⟩ := List.mem_map.mp (List.mem_eraseDups.mp reached)
    have apart := List.find?_eq_none.mp found other hother
    exact absurd (by simpa using same) apart

theorem Prompt.order_eq (h : Prompt history) : order history = firstPredicates history := by
  induction history using List.reverseRecOn with
  | nil => rfl
  | append_singleton history r ih =>
    have ih := ih h.of_concat
    by_cases fresh : r.added = true ∧ r.aliasName ∉ firstPredicates history
    · -- A first predicate of a search that was reached before would not have begun it.
      have unreached : r.aliasName ∉ firstReached history := by
        intro reached
        obtain ⟨other, hother, same⟩ := List.mem_map.mp (List.mem_eraseDups.mp reached)
        have first := h r.aliasName (mem_firstPredicates_concat.mpr (Or.inr ⟨fresh.1, rfl⟩))
        rw [List.find?_append] at first
        cases found : history.find? (·.aliasName = r.aliasName) with
        | none => exact List.find?_eq_none.mp found other hother (by simpa using same)
        | some begun =>
          rw [found] at first
          cases first
          apply fresh.2
          refine List.mem_eraseDups.mpr (List.mem_map.mpr ⟨⟨r.aliasName, true⟩, ?_, rfl⟩)
          exact List.mem_filter.mpr ⟨List.mem_of_find?_eq_some found, rfl⟩
      rw [order, firstReached_concat, if_neg unreached, firstPredicates_concat, if_pos fresh,
        List.filter_append, ← ih, order]
      congr 1
      · refine List.filter_congr fun name hname => ?_
        have other : name ≠ r.aliasName := by
          rintro rfl
          exact unreached hname
        simp [other, hname]
      · simp
    · rw [order, firstPredicates_concat, if_neg fresh, firstReached_concat]
      by_cases reached : r.aliasName ∈ firstReached history
      · rw [if_pos reached]
        exact ih
      · have unserved : r.aliasName ∉ firstPredicates history := by
          intro served
          exact reached (mem_firstReached_of_predicate served)
        rw [if_neg reached, List.filter_append, List.filter_cons_of_neg (by simpa using unserved),
          List.filter_nil, List.append_nil]
        exact ih

/-! ## Operations -/

variable {s s' : Statement}

theorem beginSearch_ne_search (s : Statement) (aliasName : String) (e : SearchError) :
    s.beginSearch aliasName ≠ .error (.search e) := by
  intro h
  unfold beginSearch at h
  split at h
  · cases h
  · cases hsearch : s.search? aliasName with
    | some search =>
      simp only [hsearch] at h
      cases h
    | none =>
      cases href : s.ref? aliasName with
      | none =>
        simp only [hsearch, href] at h
        cases h
      | some ref =>
        cases hbind : s.bindings.bind aliasName ref.relation with
        | error e =>
          simp only [hsearch, href, hbind] at h
          cases h
        | ok bound =>
          simp only [hsearch, href, hbind] at h
          cases h

theorem reach?_of_beginSearch_error {op : Operation} {aliasName : String} {e : StatementError}
    (h : s.beginSearch aliasName = .error e) : op.reach? (.error e) = none := by
  unfold Operation.reach?
  cases op.alias? with
  | none => rfl
  | some named =>
    cases e with
    | search e => exact absurd h (beginSearch_ne_search s aliasName e)
    | _ => rfl

theorem reach?_foreign {op : Operation} (foreign : op.alias? = none)
    (answer : Except StatementError Answer) : op.reach? answer = none := by
  simp only [Operation.reach?, foreign]

theorem searched_beginSearch {aliasName : String} {search : Search}
    (h : s.beginSearch aliasName = .ok (s', search)) :
    s'.searched =
      if aliasName ∈ s.searched then s.searched else s.searched ++ [aliasName] := by
  obtain ⟨-, ⟨found, rfl⟩ | ⟨new, ref, bindings, binding, -, hbind, rfl, rfl⟩⟩ :=
    beginSearch_eq_ok h
  · obtain ⟨hmem, same⟩ := search?_eq_some found
    have known : aliasName ∈ s'.searched := List.mem_map.mpr ⟨search, hmem, same⟩
    rw [if_pos known]
  · have unknown : aliasName ∉ s.searched := by
      intro known
      obtain ⟨other, hother, same⟩ := List.mem_map.mp known
      exact List.find?_eq_none.mp new other hother (by simpa using same)
    rw [if_neg unknown, searched, List.map_append, List.map_singleton, ← searched]
    exact congrArg (s.searched ++ [·]) (Bindings.bind_eq_ok hbind).2.1

/-- How a history tells the order of the searches: while the statement is open, which of them are
begun and which have predicates; and then, which have trees. -/
structure Ordered (history : List Reach) (s : Statement) : Prop where
  begun : s.trees = none → s.Aligned ∧ s.searched = firstReached history ∧
    ∀ name, (s.content name).entries ≠ [] ↔ name ∈ firstPredicates history
  closed : ∀ trees, s.trees = some trees →
    trees.map (·.binding.aliasName) = order history

namespace Ordered

theorem initial (registry : Registry) (strategy : FoldStrategy) :
    Ordered [] (new registry strategy) where
  begun _ := ⟨aligned_new registry strategy, rfl,
    fun _ => ⟨fun h => absurd rfl h, fun h => absurd h List.not_mem_nil⟩⟩
  closed _ h := absurd h.symm (Option.some_ne_none _)

/-- What has been reached has been begun, whatever became of it. -/
theorem preserve_begin (h : Ordered history s) (opened : s.trees = none) {r : Reach}
    {search : Search} (hbegin : s.beginSearch r.aliasName = .ok (s', search))
    {t : Statement} (aligned : t.Aligned) (kept : t.searched = s'.searched)
    (contents : ∀ name, (t.content name).entries ≠ [] ↔
      (s.content name).entries ≠ [] ∨ (r.added = true ∧ name = r.aliasName)) :
    Ordered (history ++ [r]) t := by
  obtain ⟨-, begun, served⟩ := h.begun opened
  constructor
  · intro _
    refine ⟨aligned, ?_, ?_⟩
    · rw [kept, searched_beginSearch hbegin, firstReached_concat, begun]
    · intro name
      rw [contents, served, mem_firstPredicates_concat]
  · intro trees closed
    rw [aligned.trees] at closed
    cases closed

theorem preserve_searching (h : Ordered history s) (opened : s.trees = none) {op : Operation}
    {aliasName : String} (named : op.alias? = some aliasName) :
    Ordered (history ++ (op.reach? (s.apply op).2).toList) (s.apply op).1 := by
  have change := (h.begun opened).1.changes_searching named
  rcases apply_searching named s with ⟨e, hbegin, ht⟩ | ⟨t, search, hbegin, ⟨e, ht⟩ | ⟨ht, added⟩⟩
  · rw [ht, reach?_of_beginSearch_error hbegin, Option.toList_none, List.append_nil]
    exact h
  · rw [ht] at change ⊢
    have reached : op.reach? (.error (.search e)) = some ⟨aliasName, false⟩ := by
      simp only [Operation.reach?, named]
    rw [reached]
    refine h.preserve_begin opened (r := ⟨aliasName, false⟩) hbegin change.aligned rfl ?_
    intro name
    rw [change.content]
    simp [Except.isOk, Except.toBool]
  · rw [ht] at change ⊢
    have reached : op.reach? (.ok .done) = some ⟨aliasName, op.isAdd⟩ := by
      simp only [Operation.reach?, named]
    rw [reached]
    refine h.preserve_begin opened (r := ⟨aliasName, op.isAdd⟩) hbegin change.aligned
      (searched_putSearch t _) ?_
    intro name
    rw [change.content, named]
    by_cases own : aliasName = name
    · subst own
      have held : s.content aliasName = search.content := by
        obtain ⟨-, found, contents⟩ := (h.begun opened).1.beginSearch hbegin
        rw [← contents, content, found]
      rw [if_pos ⟨rfl, rfl⟩, held]
      cases hadd : op.isAdd with
      | true => simp [added hadd]
      | false =>
        have same : (op.collect search.content).entries = search.content.entries := by
          cases op with
          | add => cases hadd
          | setOption aliasName name value => rw [Operation.collect]; split <;> rfl
          | _ => rfl
        simp [same]
    · have other : ¬ name = aliasName := Ne.symm own
      simp [own, other]

theorem preserve_finalize (h : Ordered history s) : Ordered history s.finalize.1 := by
  cases hf : s.finalize with
  | mk s' result =>
    cases result with
    | error e =>
      rw [finalize_eq_error hf]
      exact h
    | ok trees =>
      have closed := trees_of_finalize hf
      constructor
      · intro opened
        cases opened.symm.trans closed
      intro trees' closed'
      cases closed.symm.trans closed'
      cases already : s.trees with
      | some trees' =>
        rw [finalize, already] at hf
        cases hf
        exact h.closed trees already
      | none =>
        obtain ⟨aligned, begun, served⟩ := h.begun already
        rcases aligned.finalize_cases with ⟨-, hok⟩ | ⟨-, e, herror⟩
        · cases hok.symm.trans hf
          rw [aligned.aliases_collected, begun, order]
          refine List.filter_congr fun name _ => ?_
          rw [Bool.eq_iff_iff, decide_eq_true_iff, ← served]
          simp
        · cases herror.symm.trans hf

theorem preserve_apply (h : Ordered history s) (op : Operation) :
    Ordered (history ++ (op.reach? (s.apply op).2).toList) (s.apply op).1 := by
  cases named : op.alias? with
  | none =>
    rw [reach?_foreign named, Option.toList_none, List.append_nil]
    rcases apply_foreign named s with ht | ⟨trees, searches⟩
    · rw [ht]
      exact h.preserve_finalize
    · have same : (s.apply op).1.searched = s.searched := by
        rw [searched, searches, ← searched]
      constructor
      · intro opened
        obtain ⟨aligned, begun, served⟩ := h.begun (trees.symm.trans opened)
        have change := aligned.changes_foreign named opened
        refine ⟨change.aligned, same.trans begun, ?_⟩
        intro name
        rw [change.content, named, if_neg fun own => (Option.some_ne_none name).symm own.1,
          served]
      · rw [trees]
        exact h.closed
  | some aliasName =>
    cases opened : s.trees with
    | none => exact h.preserve_searching opened named
    | some trees =>
      rcases apply_searching named s with ⟨e, hbegin, ht⟩ | ⟨t, search, hbegin, -⟩
      · rw [ht, reach?_of_beginSearch_error hbegin, Option.toList_none, List.append_nil]
        exact h
      · rw [beginSearch_closed opened] at hbegin
        cases hbegin

theorem preserve_run (h : Ordered history s) (ops : List Operation) :
    Ordered (history ++ reaches ops (s.run ops).2) (s.run ops).1 := by
  -- What the first operation has reached is history for all that follow.
  induction ops generalizing s history with
  | nil =>
    rw [reaches, List.zip_nil_left, List.filterMap_nil, List.append_nil]
    exact h
  | cons op rest ih =>
    have later := ih (h.preserve_apply op)
    rw [List.append_assoc, ← reaches_cons] at later
    exact later

end Ordered

/-- Take any run after which the calls can be emitted. They come in the order in which their
searches were begun, each with its placeholders numbered on from those before it. This is the order
of the first predicates if and only if the searches that have predicates were begun in that order,
as they are if each is begun by its first predicate. -/
theorem expressions_in_order (registry : Registry) (strategy : FoldStrategy) (settings : Settings)
    {ops : List Operation} {s s' : Statement} {answers : List (Except StatementError Answer)}
    {es : List Expression} (hrun : (new registry strategy).run ops = (s, answers))
    (he : s.expressions settings = (s', .ok es)) :
    es.map (·.aliasName) = order (reaches ops answers) ∧
    (∀ before e after, es = before ++ e :: after → ∃ tree : SearchTree,
      tree.binding.aliasName = e.aliasName ∧
        tree.emit settings (1 + (before.flatMap (·.parameters)).length) = .ok e) ∧
    (es.map (·.aliasName) = firstPredicates (reaches ops answers) ↔
      (firstPredicates (reaches ops answers)).Sublist (firstReached (reaches ops answers))) ∧
    (Prompt (reaches ops answers) →
      es.map (·.aliasName) = firstPredicates (reaches ops answers)) := by
  obtain ⟨rfl, rfl⟩ := Prod.mk.inj hrun
  have ordered := ((Ordered.initial registry strategy).preserve_run ops).preserve_finalize
  rw [List.nil_append] at ordered
  obtain ⟨trees, hf, hes⟩ := exists_trees_of_expressions he
  rw [hf] at ordered
  have aliases : es.map (·.aliasName) = trees.map (·.binding.aliasName) := by
    symm
    refine map_eq_of_forall₂ (forall₂_of_emitAll hes) ?_
    rintro tree e ⟨first, he⟩
    exact (SearchTree.aliasName_of_emit he).symm
  rw [aliases, ordered.closed trees (trees_of_finalize hf)]
  refine ⟨rfl, ?_, order_eq_iff, Prompt.order_eq⟩
  intro before e after hsplit
  obtain ⟨tree, -, he⟩ := emit_of_emitAll hes hsplit
  exact ⟨tree, (SearchTree.aliasName_of_emit he).symm, he⟩

theorem two_searches_in_order :
    Prompt (reaches twoSearches ((new twoRelations .leftToRight).run twoSearches).2) ∧
    ∃ s es, ((new twoRelations .leftToRight).run twoSearches).1.expressions
        (.standard .shorthand true) = (s, .ok es) ∧
      es.map (·.aliasName) = ["b", "a"] := by
  have history : reaches twoSearches ((new twoRelations .leftToRight).run twoSearches).2 =
      [⟨"b", true⟩, ⟨"b", false⟩, ⟨"a", true⟩] := by
    decide +kernel
  have prompt : Prompt [⟨"b", true⟩, ⟨"b", false⟩, ⟨"a", true⟩] := by
    unfold Prompt
    decide +kernel
  have emitted : (((new twoRelations .leftToRight).run twoSearches).1.expressions
      (.standard .shorthand true)).2.isOk = true := by
    decide +kernel
  have hrun : (new twoRelations .leftToRight).run twoSearches =
      (((new twoRelations .leftToRight).run twoSearches).1,
        ((new twoRelations .leftToRight).run twoSearches).2) := rfl
  refine ⟨history ▸ prompt, ?_⟩
  cases he : ((new twoRelations .leftToRight).run twoSearches).1.expressions
      (.standard .shorthand true) with
  | mk s result =>
    rw [he] at emitted
    cases result with
    | error e => cases emitted
    | ok es =>
      have order := (expressions_in_order twoRelations .leftToRight _ hrun he).2.2.2
      rw [history] at order
      exact ⟨s, es, rfl, order prompt⟩

/-- The second relation gets an option first, but its predicate last. -/
def lateTerm : List Operation :=
  [.selectFrom "a" none, .join "b" none none "CROSS", limitRows, addFuzzy, addTerm]

theorem option_takes_first_place :
    (((new twoRelations .leftToRight).run lateTerm).1.expressions
      (.standard .shorthand true)).2.toOption.map
        (·.map fun e => (e.aliasName, placeholders e.sql)) = some [("b", [1, 2]), ("a", [3])] ∧
    firstPredicates (reaches lateTerm ((new twoRelations .leftToRight).run lateTerm).2) =
      ["a", "b"] := by
  constructor <;> decide +kernel

end Statement

end SearchSql
