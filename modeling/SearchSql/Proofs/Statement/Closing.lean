import SearchSql.Proofs.Statement.Collecting

/-!
# What an open statement is finalized to

A statement is finalized if all of its searches are valid, and then there is a tree for each search
that has predicates. A search that was begun and stayed empty is valid and has no tree. So
statements that agree on the content for every alias are finalized alike, whatever searches they
have begun and in whatever order (`Agree.valid`, `Agree.find?_collected`).
-/

namespace SearchSql

namespace Search

/-- The tree of a search, if it has any predicates. -/
def tree? (rule : FoldStrategy) (s : Search) : Option SearchTree :=
  (Entry.normalize rule s.entries).map fun p => ⟨s.binding, p, s.options⟩

/-- The search with its tree, so that nothing can be added any more. -/
def close (rule : FoldStrategy) (s : Search) : Search := { s with closed := some (s.tree? rule) }

variable {s : Search}

theorem binding_of_tree {rule : FoldStrategy} {tree : SearchTree} (h : s.tree? rule = some tree) :
    tree.binding = s.binding := by
  obtain ⟨p, -, rfl⟩ := Option.map_eq_some_iff.mp h
  rfl

/-- The tree that a search is expected to be finalized to. -/
structure MadeInto (rule : FoldStrategy) (s : Search) (tree : SearchTree) : Prop where
  binding : tree.binding = s.binding
  root : Entry.normalize rule s.entries = some tree.root
  options : tree.options = s.options

theorem forall₂_tree (rule : FoldStrategy) (searches : List Search) :
    List.Forall₂ (MadeInto rule) (searches.filter fun s => ! s.entries.isEmpty)
      (searches.filterMap (·.tree? rule)) := by
  induction searches with
  | nil => exact .nil
  | cons s rest ih =>
    cases hentries : s.entries with
    | nil =>
      have empty : s.tree? rule = none := by rw [tree?, hentries]; rfl
      rw [List.filter_cons_of_neg (by simp [hentries]), List.filterMap_cons_none empty]
      exact ih
    | cons first more =>
      obtain ⟨root, hroot⟩ : ∃ root, Entry.normalize rule s.entries = some root := by
        rw [hentries]
        exact ⟨_, rfl⟩
      have made : s.tree? rule = some ⟨s.binding, root, s.options⟩ := by rw [tree?, hroot]; rfl
      rw [List.filter_cons_of_pos (by simp [hentries]), List.filterMap_cons_some made]
      exact .cons ⟨rfl, hroot, rfl⟩ ih

theorem finalize_valid (opened : s.closed = none) (valid : s.validate = .ok ())
    (rule : FoldStrategy) :
    s.finalize (.text rule.name) = .ok (s.close rule, s.tree? rule) := by
  rw [finalize, opened]
  simp only [valid, normalizeBy_name]
  rfl

end Search

namespace Statement

/-- The trees of the searches that have predicates, in the order in which they were begun. -/
def collected (s : Statement) : List SearchTree := s.searches.filterMap (·.tree? s.strategy)

theorem finalizeSearches_valid {searches : List Search} (rule : FoldStrategy)
    (opened : ∀ search ∈ searches, search.closed = none)
    (valid : ∀ search ∈ searches, search.validate = .ok ()) :
    finalizeSearches rule searches =
      (searches.map (·.close rule), .ok (searches.filterMap (·.tree? rule))) := by
  induction searches with
  | nil => rfl
  | cons first rest ih =>
    obtain ⟨opened, later⟩ := List.forall_mem_cons.mp opened
    obtain ⟨valid, laterValid⟩ := List.forall_mem_cons.mp valid
    have hrest := ih later laterValid
    have trees : (first :: rest).filterMap (·.tree? rule) =
        (first.tree? rule).toList ++ rest.filterMap (·.tree? rule) := by
      rw [List.filterMap_cons]
      cases first.tree? rule <;> rfl
    rw [finalizeSearches, Search.finalize_valid opened valid, hrest, trees]
    rfl

variable {s t : Statement}

/-- All searches are validated before anything is closed. -/
theorem Aligned.finalize_cases (h : s.Aligned) :
    ((∀ search ∈ s.searches, search.validate = .ok ()) ∧ s.finalize =
      ({ s with searches := s.searches.map (·.close s.strategy), trees := some s.collected },
        .ok s.collected)) ∨
    ((¬ ∀ search ∈ s.searches, search.validate = .ok ()) ∧ ∃ e, s.finalize = (s, .error e)) := by
  unfold finalize
  simp only [h.trees]
  cases hv : s.searches.forM Search.validate with
  | error e =>
    refine Or.inr ⟨?_, .search e, rfl⟩
    intro valid
    rw [Except.forM_eq_ok.mpr valid] at hv
    cases hv
  | ok u =>
    have valid := Except.forM_eq_ok.mp hv
    refine Or.inl ⟨valid, ?_⟩
    simp only [finalizeSearches_valid s.strategy h.opened valid]
    trivial

theorem map_eq_of_forall₂ {α β γ : Type} {R : α → β → Prop} {f : α → γ} {g : β → γ} {xs : List α}
    {ys : List β} (h : List.Forall₂ R xs ys) (same : ∀ x y, R x y → f x = g y) :
    xs.map f = ys.map g := by
  have pointwise : List.Forall₂ Eq (xs.map f) (ys.map g) := by
    rw [List.forall₂_map_left_iff, List.forall₂_map_right_iff]
    exact h.imp same
  rwa [List.forall₂_eq_eq_eq] at pointwise

/-- The trees come in the order of their searches. -/
theorem Aligned.aliases_collected (h : s.Aligned) :
    s.collected.map (·.binding.aliasName) =
      s.searched.filter fun name => ! (s.content name).entries.isEmpty := by
  have made := Search.forall₂_tree s.strategy s.searches
  rw [collected, ← map_eq_of_forall₂ made fun search tree made =>
    congrArg Binding.aliasName made.binding.symm, searched, List.filter_map]
  congr 1
  refine List.filter_congr fun search hs => ?_
  rw [Function.comp_apply, content, h.search?_of_mem hs]
  rfl

/-! ## One alias -/

theorem find?_tree (rule : FoldStrategy) {searches : List Search}
    (nodup : (searches.map (·.binding.aliasName)).Nodup) (aliasName : String) :
    (searches.filterMap (·.tree? rule)).find? (·.binding.aliasName = aliasName) =
      (searches.find? (·.binding.aliasName = aliasName)).bind (·.tree? rule) := by
  induction searches with
  | nil => rfl
  | cons first rest ih =>
    obtain ⟨apart, nodup⟩ := List.nodup_cons.mp nodup
    have ih := ih nodup
    by_cases own : first.binding.aliasName = aliasName
    · have later : rest.find? (·.binding.aliasName = aliasName) = none := by
        rw [List.find?_eq_none]
        intro other hother same
        have same : other.binding.aliasName = aliasName := by simpa using same
        exact apart (List.mem_map.mpr ⟨other, hother, same.trans own.symm⟩)
      rw [List.find?_cons_of_pos (by simpa using own), Option.bind_some]
      cases htree : first.tree? rule with
      | none => rw [List.filterMap_cons_none htree, ih, later, Option.bind_none]
      | some tree =>
        have named : tree.binding.aliasName = aliasName := by
          rw [Search.binding_of_tree htree, own]
        rw [List.filterMap_cons_some htree, List.find?_cons_of_pos (by simpa using named)]
    · rw [List.find?_cons_of_neg (by simpa using own), ← ih]
      cases htree : first.tree? rule with
      | none => rw [List.filterMap_cons_none htree]
      | some tree =>
        have named : tree.binding.aliasName ≠ aliasName := by
          rw [Search.binding_of_tree htree]
          exact own
        rw [List.filterMap_cons_some htree, List.find?_cons_of_neg (by simpa using named)]

namespace Aligned

theorem find?_collected (h : s.Aligned) (aliasName : String) :
    s.collected.find? (·.binding.aliasName = aliasName) =
      (s.search? aliasName).bind (·.tree? s.strategy) :=
  find?_tree s.strategy h.nodup aliasName

/-- What holds of an empty search holds of all searches if it holds of what the contents make. -/
theorem forall_search (h : s.Aligned) {P : Search → Prop}
    (empty : ∀ binding, P (Search.ofBinding binding)) :
    (∀ search ∈ s.searches, P search) ↔
      ∀ aliasName binding, s.binding? aliasName = some binding →
        P ((Search.ofBinding binding).fill (s.content aliasName)) := by
  constructor
  · intro each aliasName binding hbinding
    cases hs : s.search? aliasName with
    | none =>
      have nothing : s.content aliasName = ⟨[], []⟩ := by rw [content, hs]
      rw [nothing]
      exact empty binding
    | some search =>
      obtain ⟨binding', hbinding', hsearch⟩ := h.eq_fill hs
      cases hbinding.symm.trans hbinding'
      rw [← hsearch]
      exact each search (search?_eq_some hs).1
  · intro made search hs
    obtain ⟨binding, hbinding, hsearch⟩ := h.eq_fill (h.search?_of_mem hs)
    rw [hsearch]
    exact made _ binding hbinding

/-- What is read off a search, and is nothing for an empty one, is read off the content. -/
theorem bind_search? (h : s.Aligned) {α : Type} {f : Search → Option α}
    (empty : ∀ binding, f (Search.ofBinding binding) = none) (aliasName : String) :
    (s.search? aliasName).bind f =
      (s.binding? aliasName).bind fun binding =>
        f ((Search.ofBinding binding).fill (s.content aliasName)) := by
  cases hs : s.search? aliasName with
  | none =>
    have nothing : s.content aliasName = ⟨[], []⟩ := by rw [content, hs]
    rw [nothing, Option.bind_none]
    symm
    rw [Option.bind_eq_none_iff]
    intro binding _
    exact empty binding
  | some search =>
    obtain ⟨binding, hbinding, hsearch⟩ := h.eq_fill hs
    rw [hbinding, Option.bind_some, Option.bind_some, ← hsearch]

end Aligned

/-! ## Two statements -/

/-- Two open statements that differ at most in the searches they have begun and left empty, and in
the order of their searches. -/
structure Agree (s t : Statement) : Prop where
  left : s.Aligned
  right : t.Aligned
  frame : s.frame = t.frame
  content : ∀ aliasName, s.content aliasName = t.content aliasName

namespace Agree

theorem strategy (h : Agree s t) : s.strategy = t.strategy := by
  have frames := congrArg Statement.strategy h.frame
  exact frames

theorem binding? (h : Agree s t) (aliasName : String) :
    s.binding? aliasName = t.binding? aliasName := by
  have frames := congrArg (fun frame => Statement.binding? frame aliasName) h.frame
  exact frames

theorem valid (h : Agree s t) :
    (∀ search ∈ s.searches, search.validate = .ok ()) ↔
      ∀ search ∈ t.searches, search.validate = .ok () := by
  have empty : ∀ binding, (Search.ofBinding binding).validate = .ok () := fun _ => rfl
  rw [h.left.forall_search empty, h.right.forall_search empty]
  refine forall₂_congr fun aliasName binding => ?_
  rw [h.binding?, h.content]

theorem find?_collected (h : Agree s t) (aliasName : String) :
    s.collected.find? (·.binding.aliasName = aliasName) =
      t.collected.find? (·.binding.aliasName = aliasName) := by
  have empty (rule : FoldStrategy) : ∀ binding, (Search.ofBinding binding).tree? rule = none :=
    fun _ => rfl
  rw [h.left.find?_collected, h.right.find?_collected, h.left.bind_search? (empty _),
    h.right.bind_search? (empty _), h.binding?, h.content, h.strategy]

end Agree

end Statement

end SearchSql
