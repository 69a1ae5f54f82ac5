import SearchSql.Proofs.Call.Emission
import SearchSql.Proofs.Success
import SearchSql.Search.Basic

/-!
# The invariant of a search

A search collects predicates for one of the known indexes, with options that were checked when they
were set. Its tree is made of leaves that have been validated one by one, so the tree is valid as a
whole (`Invariant.preserve_finalize`).
-/

namespace SearchSql

namespace Predicate

theorem checkLiterals_eq_ok {p : Predicate Value} :
    p.checkLiterals = .ok () ↔ ∀ v ∈ p.literals, v.IsLiteral := by
  rw [checkLiterals, Except.forM_eq_ok]
  refine forall₂_congr fun v _ => ?_
  rw [Except.map_eq_ok, Value.IsLiteral]
  simp

end Predicate

namespace Binding

theorem resolve_eq_ok {binding : Binding} {f : String} :
    (((binding.resolve f).mapError ValidationError.binding).map fun _ => ()) = .ok () ↔
      f ∈ binding.index.fieldNames := by
  simp only [Except.map_eq_ok, Except.mapError_eq_ok, and_true, resolve, SearchIndex.findField?]
  by_cases hf : f ∈ binding.index.fieldNames
  · simp [hf]
  · simp [hf]

theorem validate_eq_ok {binding : Binding} {p : Predicate Value} :
    binding.validate p = .ok () ↔
      (∀ f ∈ p.fields, f ∈ binding.index.fieldNames) ∧ ∀ v ∈ p.literals, v.IsLiteral := by
  have fields : (p.fields.forM fun f =>
      (binding.resolve f).mapError ValidationError.binding |>.map fun _ => ()) = .ok () ↔
      ∀ f ∈ p.fields, f ∈ binding.index.fieldNames := by
    rw [Except.forM_eq_ok]
    exact forall₂_congr fun f _ => resolve_eq_ok
  rw [← fields, ← Predicate.checkLiterals_eq_ok, validate, Except.bind_eq_ok]
  constructor
  · rintro ⟨_, hfields, hliterals⟩
    exact ⟨hfields, Except.mapError_eq_ok.mp hliterals⟩
  · rintro ⟨hfields, hliterals⟩
    exact ⟨(), hfields, Except.mapError_eq_ok.mpr hliterals⟩

end Binding

/-! ## What the operations do -/

namespace Search

variable {s s' : Search}

theorem requireOpen_eq_ok : s.requireOpen = .ok () ↔ s.closed = none := by
  unfold requireOpen isFinalized
  cases s.closed with
  | some tree => simp
  | none => simp

theorem add_eq_ok {node how : Value} (h : s.add node how = .ok s') :
    s.closed = none ∧ ∃ p op, node = .predicate p ∧
      s' = { s with entries := s.entries ++ [⟨op, p⟩] } := by
  obtain ⟨_, hopen, h⟩ := Except.bind_eq_ok.mp h
  refine ⟨requireOpen_eq_ok.mp hopen, ?_⟩
  cases node with
  | predicate p =>
    obtain ⟨op, -, hs'⟩ := Except.bind_eq_ok.mp h
    cases hs'
    exact ⟨p, op, rfl, rfl⟩
  | _ => cases h

theorem check_eq_ok {name value : Value} {o : SearchOption}
    (h : SearchOption.check name value = .ok o) : o.accepts value = true := by
  unfold SearchOption.check at h
  cases hn : SearchOption.ofValue? name with
  | none =>
    rw [hn] at h
    cases h
  | some o' =>
    simp only [hn] at h
    by_cases accepted : o'.accepts value = true
    · rw [if_pos accepted] at h
      cases h
      exact accepted
    · rw [if_neg accepted] at h
      cases o' <;> cases h

theorem setOption_eq_ok {name value : Value} (h : s.setOption name value = .ok s') :
    s.closed = none ∧ ∃ o, o.accepts value = true ∧
      s' = { s with options := s.options.put o value } := by
  obtain ⟨_, hopen, h⟩ := Except.bind_eq_ok.mp h
  obtain ⟨o, ho, hs'⟩ := Except.bind_eq_ok.mp h
  cases hs'
  exact ⟨requireOpen_eq_ok.mp hopen, o, check_eq_ok (Except.mapError_eq_ok.mp ho), rfl⟩

/-- A validated search has only validated predicates. -/
theorem validate_entries (h : s.validate = .ok ()) :
    ∀ e ∈ s.entries, s.binding.validate e.node = .ok () := by
  obtain ⟨_, hentries, -⟩ := Except.bind_eq_ok.mp h
  intro e he
  exact Except.mapError_eq_ok.mp (Except.forM_eq_ok.mp hentries e he)

/-- An empty search is normalized to nothing by any rule. -/
theorem normalizeBy_eq_ok {strategy : Value} {entries : List (Entry Value)}
    {root : Option (Predicate Value)} (h : Entry.normalizeBy strategy entries = .ok root) :
    ∃ rule, root = Entry.normalize rule entries := by
  unfold Entry.normalizeBy at h
  by_cases empty : entries.isEmpty
  · rw [if_pos empty] at h
    cases h
    refine ⟨.leftToRight, ?_⟩
    rw [List.isEmpty_iff.mp empty]
    rfl
  · rw [if_neg empty] at h
    obtain ⟨rule, -, rfl⟩ := Except.map_eq_ok.mp h
    exact ⟨rule, rfl⟩

/-- The rules of grouping can be asked for by their names. -/
theorem normalizeBy_name (rule : FoldStrategy) (entries : List (Entry Value)) :
    Entry.normalizeBy (.text rule.name) entries = .ok (Entry.normalize rule entries) := by
  cases entries with
  | nil => rfl
  | cons first rest => cases rule <;> rfl

/-- Validation is all that can keep a search from being finalized. -/
theorem exists_finalize (valid : s.validate = .ok ()) (rule : FoldStrategy) :
    ∃ s' tree, s.finalize (.text rule.name) = .ok (s', tree) := by
  unfold finalize
  cases s.closed with
  | some tree => exact ⟨s, tree, rfl⟩
  | none =>
    simp only [valid, normalizeBy_name]
    exact ⟨_, _, rfl⟩

/-- A search that is closed already keeps its tree; an open one is validated and folded. -/
theorem finalize_eq_ok {strategy : Value} {tree : Option SearchTree}
    (h : s.finalize strategy = .ok (s', tree)) :
    (s.closed = some tree ∧ s' = s) ∨
    (s.closed = none ∧ s.validate = .ok () ∧ s' = { s with closed := some tree } ∧
      ∃ rule, tree = (Entry.normalize rule s.entries).map fun p => ⟨s.binding, p, s.options⟩) := by
  unfold finalize at h
  cases hc : s.closed with
  | some closed =>
    simp only [hc] at h
    cases h
    exact Or.inl ⟨rfl, rfl⟩
  | none =>
    simp only [hc] at h
    obtain ⟨_, hv, h⟩ := Except.bind_eq_ok.mp h
    obtain ⟨root, hr, hs'⟩ := Except.bind_eq_ok.mp h
    obtain ⟨rule, rfl⟩ := normalizeBy_eq_ok (Except.mapError_eq_ok.mp hr)
    cases hs'
    exact Or.inr ⟨rfl, hv, rfl, rule, rfl⟩

end Search

/-! ## The invariant -/

/-- A value that is a predicate, as a list of one. -/
def Value.predicates : Value → List (Predicate Value)
  | .predicate p => [p]
  | _ => []

/-- What holds of every finalized search: it is bound to one of the indexes, its fields are fields
of that index, and its nodes of unknown types come from the predicates that were added. -/
structure SearchTree.Invariant (indexes : List SearchIndex) (added : List (Predicate Value))
    (tree : SearchTree) : Prop where
  index : tree.binding.index ∈ indexes
  fields : ∀ f ∈ tree.root.fields, f ∈ tree.binding.index.fieldNames
  validated : tree.IsValidated
  foreign : ∀ n, .foreign n ∈ tree.root.nodes → ∃ p ∈ added, .foreign n ∈ p.nodes

structure Search.Invariant (indexes : List SearchIndex) (added : List (Predicate Value))
    (s : Search) : Prop where
  index : s.binding.index ∈ indexes
  entries : ∀ e ∈ s.entries, e.node ∈ added
  options : ∀ o v, s.options.get? o = some v → o.accepts v = true
  closed : ∀ tree, s.closed = some (some tree) → tree.Invariant indexes added

section Preserved

variable {indexes : List SearchIndex} {added added' : List (Predicate Value)}

theorem SearchTree.Invariant.mono {tree : SearchTree} (h : tree.Invariant indexes added)
    (more : added ⊆ added') : tree.Invariant indexes added' := by
  refine { h with foreign := ?_ }
  intro n hn
  obtain ⟨p, hp, hnode⟩ := h.foreign n hn
  exact ⟨p, more hp, hnode⟩

/-- Folding keeps the leaves, so what holds of the leaves of the entries holds of the tree. -/
theorem SearchTree.Invariant.of_entries {binding : Binding} {entries : List (Entry Value)}
    {options : Table SearchOption Value} {rule : FoldStrategy} {root : Predicate Value}
    (index : binding.index ∈ indexes) (hentries : ∀ e ∈ entries, e.node ∈ added)
    (hoptions : ∀ o v, options.get? o = some v → o.accepts v = true)
    (valid : ∀ e ∈ entries, binding.validate e.node = .ok ())
    (hroot : Entry.normalize rule entries = some root) :
    SearchTree.Invariant indexes added ⟨binding, root, options⟩ := by
  have leaf {q : Predicate Value} (hq : q ∈ root.leaves) : ∃ e ∈ entries, q ∈ e.node.leaves := by
    rw [Entry.leaves_normalize hroot] at hq
    exact List.mem_flatMap.mp hq
  refine ⟨index, ?_, ⟨?_, hoptions⟩, ?_⟩
  · intro f hf
    rw [Predicate.fields_eq_leaves] at hf
    obtain ⟨q, hq, hfield⟩ := List.mem_filterMap.mp hf
    obtain ⟨e, he, hleaf⟩ := leaf hq
    apply (Binding.validate_eq_ok.mp (valid e he)).1
    rw [Predicate.fields_eq_leaves]
    exact List.mem_filterMap.mpr ⟨q, hleaf, hfield⟩
  · intro v hv
    rw [Predicate.literals_eq_leaves] at hv
    obtain ⟨q, hq, hliteral⟩ := List.mem_filterMap.mp hv
    obtain ⟨e, he, hleaf⟩ := leaf hq
    apply (Binding.validate_eq_ok.mp (valid e he)).2
    rw [Predicate.literals_eq_leaves]
    exact List.mem_filterMap.mpr ⟨q, hleaf, hliteral⟩
  · intro n hn
    obtain ⟨e, he, hleaf⟩ := leaf (Predicate.foreign_mem_leaves.mpr hn)
    exact ⟨e.node, hentries e he, Predicate.foreign_mem_leaves.mp hleaf⟩

namespace Search.Invariant

variable {s s' : Search}

theorem initial {binding : Binding} (h : binding.index ∈ indexes) :
    (Search.ofBinding binding).Invariant indexes added where
  index := h
  entries _ he := nomatch he
  options _ _ ho := nomatch ho
  closed _ ht := nomatch ht

theorem mono (h : s.Invariant indexes added) (more : added ⊆ added') :
    s.Invariant indexes added' := by
  refine { h with entries := ?_, closed := ?_ }
  · intro e he
    exact more (h.entries e he)
  · intro tree ht
    exact (h.closed tree ht).mono more

theorem preserve_add (h : s.Invariant indexes added) {node how : Value}
    (hadd : s.add node how = .ok s') : s'.Invariant indexes (added ++ node.predicates) := by
  obtain ⟨-, p, op, rfl, rfl⟩ := add_eq_ok hadd
  have kept := h.mono (List.subset_append_left added [p])
  refine { kept with entries := ?_ }
  intro e he
  rcases List.mem_append.mp he with he | he
  · exact kept.entries e he
  · cases List.mem_singleton.mp he
    exact List.mem_append_right _ List.mem_cons_self

theorem preserve_setOption (h : s.Invariant indexes added) {name value : Value}
    (hset : s.setOption name value = .ok s') : s'.Invariant indexes added := by
  obtain ⟨-, o, accepted, rfl⟩ := setOption_eq_ok hset
  refine { h with options := ?_ }
  intro o' v hv
  rw [Table.get?_put] at hv
  by_cases same : o = o'
  · rw [if_pos same] at hv
    cases hv
    exact same ▸ accepted
  · rw [if_neg same] at hv
    exact h.options o' v hv

theorem preserve_finalize (h : s.Invariant indexes added) {strategy : Value}
    {tree : Option SearchTree} (hfinalize : s.finalize strategy = .ok (s', tree)) :
    s'.Invariant indexes added ∧ ∀ t ∈ tree, t.Invariant indexes added := by
  rcases finalize_eq_ok hfinalize with ⟨hc, rfl⟩ | ⟨-, valid, rfl, rule, htree⟩
  · refine ⟨h, ?_⟩
    rintro t rfl
    exact h.closed t hc
  · have made : ∀ t ∈ tree, t.Invariant indexes added := by
      intro t ht
      rw [htree] at ht
      obtain ⟨root, hroot, rfl⟩ := Option.map_eq_some_iff.mp ht
      exact .of_entries h.index h.entries h.options (validate_entries valid) hroot
    refine ⟨{ h with closed := ?_ }, made⟩
    intro t ht
    exact made t (Option.some.inj ht)

end Search.Invariant

end Preserved

end SearchSql
