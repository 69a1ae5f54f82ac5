import SearchSql.Proofs.Predicate.Leaves

/-!
# Normal form

A predicate is in normal form if each `must` and `should` in it has two children at least.
Normalizing a sequence gives a predicate in normal form that has the leaves of the sequence in
their order, and leaves such a predicate as it is (`normalize_isNormal`).
-/

namespace SearchSql

namespace Predicate

variable {α : Type}

/-- No `must` or `should` in the predicate has fewer than two children. -/
def IsNormal (p : Predicate α) : Prop :=
  ∀ kind first rest, (boolean kind first rest).Occurs p → kind ≠ .mustNot →
    2 ≤ (first :: rest).length

theorem isNormal_of_leaf {p : Predicate α} (leaf : p.children = []) : p.IsNormal := by
  intro kind first rest occurs
  cases occurs with
  | here => cases leaf
  | inside child _ =>
    rw [leaf] at child
    cases child

@[simp] theorem isNormal_boolean {kind : Kind} {first : Predicate α} {rest : List (Predicate α)} :
    (boolean kind first rest).IsNormal ↔
      (kind ≠ .mustNot → rest ≠ []) ∧ ∀ p ∈ first :: rest, p.IsNormal := by
  constructor
  · intro normal
    constructor
    · rintro combining rfl
      exact absurd (normal kind first [] .here combining) (by simp)
    · intro p hp k f r occurs
      exact normal k f r (.inside hp occurs)
  · rintro ⟨two, inner⟩ k f r occurs combining
    cases occurs with
    | here =>
      have more := List.length_pos_of_ne_nil (two combining)
      rw [List.length_cons]
      omega
    | inside child h => exact inner _ child k f r h combining

@[simp] theorem isNormal_boost {query : Predicate α} {factor : Factor} :
    (boost query factor).IsNormal ↔ query.IsNormal := by
  constructor
  · intro normal k f r occurs
    exact normal k f r (.inside List.mem_cons_self occurs)
  · intro normal k f r occurs
    cases occurs with
    | inside child h =>
      cases List.mem_singleton.mp child
      exact normal k f r h

/-! ## Simplification -/

theorem isNormal_rebuild_boolean (kind : Kind) (first : Predicate α) (rest : List (Predicate α))
    {child : Predicate α} {more : List (Predicate α)} (h : ∀ p ∈ child :: more, p.IsNormal) :
    (rebuild (.boolean kind first rest) (child :: more)).IsNormal := by
  cases more with
  | nil =>
    have alone := h child List.mem_cons_self
    cases kind with
    | mustNot => exact isNormal_boolean.mpr ⟨fun combining => absurd rfl combining, h⟩
    | _ => exact alone
  | cons next more =>
    have normal : (boolean kind child (next :: more)).IsNormal :=
      isNormal_boolean.mpr ⟨fun _ => List.cons_ne_nil _ _, h⟩
    cases kind <;> exact normal

theorem isNormal_collapse (p : Predicate α) : (collapse p).IsNormal := by
  induction p using tree_induction with
  | leaf p leaf =>
    rw [collapse_eq_self_of_leaf leaf]
    exact isNormal_of_leaf leaf
  | boolean kind first rest ih =>
    rw [collapse_eq_rebuild, children, List.map_cons]
    apply isNormal_rebuild_boolean
    rw [← List.map_cons]
    exact List.forall_mem_map.mpr ih
  | boost query factor ih =>
    rw [collapse]
    exact isNormal_boost.mpr ih

/-- What is in normal form already stays as it is. -/
theorem collapse_of_isNormal {p : Predicate α} (normal : p.IsNormal) : collapse p = p := by
  induction p using tree_induction with
  | leaf p leaf => exact collapse_eq_self_of_leaf leaf
  | boolean kind first rest ih =>
    obtain ⟨two, inner⟩ := isNormal_boolean.mp normal
    have same : (first :: rest).map collapse = first :: rest := by
      refine (List.map_congr_left ?_).trans (List.map_id _)
      intro p hp
      exact ih p hp (inner p hp)
    rw [collapse_eq_rebuild, children, same]
    cases rest with
    | cons next more => cases kind <;> rfl
    | nil =>
      cases kind with
      | mustNot => rfl
      | _ => exact absurd rfl (two (by decide))
  | boost query factor ih => rw [collapse, ih (isNormal_boost.mp normal)]

end Predicate

namespace Entry

open Predicate

variable {α : Type}

/-! ## Folding -/

theorem isNormal_combine {kind : Kind} {acc node : Predicate α} (hacc : acc.IsNormal)
    (hnode : node.IsNormal) : (combine kind acc node).IsNormal := by
  have wrapped : (boolean kind acc [node]).IsNormal := by
    simp [hacc, hnode]
  unfold combine
  split
  · next k first rest =>
    by_cases same : k = kind
    · rw [if_pos same]
      obtain ⟨-, inner⟩ := isNormal_boolean.mp hacc
      refine isNormal_boolean.mpr ⟨fun _ => List.concat_ne_nil _ _, ?_⟩
      rw [← List.cons_append]
      exact List.forall_mem_append.mpr ⟨inner, List.forall_mem_singleton.mpr hnode⟩
    · rw [if_neg same]
      exact wrapped
  · exact wrapped

theorem isNormal_joinTo {acc : Predicate α} {entry : Entry α} (hacc : acc.IsNormal)
    (hnode : entry.node.IsNormal) : (joinTo acc entry).IsNormal := by
  unfold joinTo
  split
  · exact isNormal_combine hacc hnode
  · exact isNormal_combine hacc hnode
  · simp [hacc, hnode]

theorem isNormal_fold_left {acc : Predicate α} {entries : List (Entry α)} (hacc : acc.IsNormal)
    (h : ∀ e ∈ entries, e.node.IsNormal) : (foldLeftToRight acc entries).IsNormal := by
  induction entries generalizing acc with
  | nil => exact hacc
  | cons e rest ih =>
    obtain ⟨he, hrest⟩ := List.forall_mem_cons.mp h
    exact ih (isNormal_joinTo hacc he) hrest

/-- The predicates of the group are in normal form. -/
def Group.IsNormal (g : Group α) : Prop := ∀ p ∈ g.first :: g.rest, p.IsNormal

structure Groups.IsNormal (gs : Groups α) : Prop where
  earlier : ∀ g ∈ gs.earlier, g.IsNormal
  current : gs.current.IsNormal

theorem Group.IsNormal.close {g : Group α} (h : g.IsNormal) : g.close.IsNormal := by
  unfold Group.close
  split
  · exact h g.first List.mem_cons_self
  · next some =>
    refine isNormal_boolean.mpr ⟨fun _ none => some ?_, h⟩
    rw [none]
    rfl

theorem Groups.IsNormal.close {gs : Groups α} (h : gs.IsNormal) : gs.close.IsNormal := by
  unfold Groups.close
  cases hearlier : gs.earlier with
  | nil => exact h.current.close
  | cons g more =>
    have earlier := h.earlier
    rw [hearlier] at earlier
    obtain ⟨hg, hmore⟩ := List.forall_mem_cons.mp earlier
    refine isNormal_boolean.mpr ⟨fun _ => List.concat_ne_nil _ _, ?_⟩
    refine List.forall_mem_cons.mpr ⟨hg.close, List.forall_mem_append.mpr ⟨?_, ?_⟩⟩
    · exact List.forall_mem_map.mpr fun other hother => (hmore other hother).close
    · exact List.forall_mem_singleton.mpr h.current.close

theorem Group.isNormal_of_one {p : Predicate α} (h : p.IsNormal) : Group.IsNormal ⟨p, []⟩ :=
  List.forall_mem_singleton.mpr h

theorem Groups.IsNormal.add {gs : Groups α} {entry : Entry α} (h : gs.IsNormal)
    (hnode : entry.node.IsNormal) : (gs.add entry).IsNormal := by
  unfold Groups.add
  cases entry.op with
  | and =>
    refine ⟨h.earlier, ?_⟩
    show ∀ p ∈ gs.current.first :: (gs.current.rest ++ [entry.node]), p.IsNormal
    rw [← List.cons_append]
    exact List.forall_mem_append.mpr ⟨h.current, List.forall_mem_singleton.mpr hnode⟩
  | or =>
    refine ⟨?_, Group.isNormal_of_one hnode⟩
    exact List.forall_mem_append.mpr ⟨h.earlier, List.forall_mem_singleton.mpr h.current⟩
  | orAllPrior =>
    refine ⟨?_, Group.isNormal_of_one hnode⟩
    exact List.forall_mem_singleton.mpr (Group.isNormal_of_one h.close)

theorem isNormal_fold_groups {gs : Groups α} {entries : List (Entry α)} (hgs : gs.IsNormal)
    (h : ∀ e ∈ entries, e.node.IsNormal) : (entries.foldl Groups.add gs).IsNormal := by
  induction entries generalizing gs with
  | nil => exact hgs
  | cons e rest ih =>
    obtain ⟨he, hrest⟩ := List.forall_mem_cons.mp h
    exact ih (hgs.add he) hrest

theorem isNormal_fold (strategy : FoldStrategy) {first : Predicate α} {entries : List (Entry α)}
    (hfirst : first.IsNormal) (h : ∀ e ∈ entries, e.node.IsNormal) :
    (fold strategy first entries).IsNormal := by
  cases strategy with
  | leftToRight => exact isNormal_fold_left hfirst h
  | andPrecedence =>
    have start : Groups.IsNormal ⟨[], ⟨first, []⟩⟩ :=
      ⟨List.forall_mem_nil _, Group.isNormal_of_one hfirst⟩
    exact (isNormal_fold_groups start h).close

/-- By either rule of grouping a sequence that is not empty is normalized to a predicate in normal
form, even where its own predicates are not. The leaves are those of the first entry, then those of
the second, and so on, and so are the fields; and the predicate is what it is normalized to itself,
by either rule and however it is joined. -/
theorem normalize_isNormal (strategy : FoldStrategy) (first : Entry α) (rest : List (Entry α)) :
    ∃ root, normalize strategy (first :: rest) = some root ∧ root.IsNormal ∧
      root.leaves = (first :: rest).flatMap (·.node.leaves) ∧
      root.fields = (first :: rest).flatMap (·.node.fields) ∧
      ∀ other op, normalize other [⟨op, root⟩] = some root := by
  obtain ⟨root, normalized⟩ : ∃ root, normalize strategy (first :: rest) = some root := ⟨_, rfl⟩
  have leaves := leaves_normalize normalized
  have normal : root.IsNormal := by
    cases normalized
    have simplified (e : Entry α) : e.simplify.node.IsNormal := by
      rw [simplify, simplify_eq_collapse]
      exact isNormal_collapse e.node
    refine isNormal_fold strategy (simplified first) ?_
    exact List.forall_mem_map.mpr fun e _ => simplified e
  refine ⟨root, normalized, normal, leaves, ?_, ?_⟩
  · rw [fields_eq_leaves, leaves, List.filterMap_flatMap]
    exact List.flatMap_congr fun e _ => (fields_eq_leaves e.node).symm
  · intro other op
    have kept : root.simplify = root := by
      rw [simplify_eq_collapse, collapse_of_isNormal normal]
    cases other with
    | leftToRight => exact congrArg some kept
    | andPrecedence => exact congrArg some kept

/-- A `must` of one `should` of one leaf, joined to another such tree by `or`. -/
example : normalize .andPrecedence
    [⟨.and, .boolean .must (.boolean .should (.parse "a") []) []⟩,
      ⟨.or, .boolean .mustNot (.boolean .must (.parse "b") []) []⟩] =
    some (.boolean .should (.parse "a") [.boolean .mustNot (.parse "b") []] : Predicate Value) := by
  cbv

end Entry

end SearchSql
