import Mathlib.Data.List.Basic
import SearchSql.Predicate.Folding
import SearchSql.Schema.Binding

/-!
# Leaves

The leaves of a predicate from left to right. Neither simplification nor folding loses, adds or
moves one (`leaves_normalize`), and what validation looks at are the leaves alone.
-/

namespace SearchSql

namespace Predicate

variable {α : Type}

/-- Induction on the tree. All nodes without children are one case. -/
@[elab_as_elim]
theorem tree_induction {motive : Predicate α → Prop}
    (leaf : ∀ p, p.children = [] → motive p)
    (boolean : ∀ kind first rest, (∀ p ∈ first :: rest, motive p) →
      motive (.boolean kind first rest))
    (boost : ∀ query factor, motive query → motive (.boost query factor)) :
    ∀ p, motive p := by
  intro p
  refine @Predicate.rec α motive (fun ps => ∀ p ∈ ps, motive p)
    ?_ ?_ ?_ ?_ ?_ ?_ ?_ boost ?_ ?_ ?_ p
  case refine_7 =>
    intro kind first rest hfirst hrest
    exact boolean kind first rest (List.forall_mem_cons.mpr ⟨hfirst, hrest⟩)
  case refine_9 => exact List.forall_mem_nil _
  case refine_10 =>
    intro p ps hp hps
    exact List.forall_mem_cons.mpr ⟨hp, hps⟩
  all_goals
    intros
    exact leaf _ rfl

/-- Induction on the tree, with all nodes in one case. -/
theorem children_induction {motive : Predicate α → Prop}
    (node : ∀ p, (∀ q ∈ p.children, motive q) → motive p) : ∀ p, motive p := by
  intro p
  induction p using tree_induction with
  | leaf p none =>
    apply node
    rw [none]
    exact List.forall_mem_nil _
  | boolean kind first rest ih => exact node _ ih
  | boost query factor ih => exact node _ (List.forall_mem_singleton.mpr ih)

/-- A predicate stands in another: at any depth, in any place. -/
inductive Occurs (q : Predicate α) : Predicate α → Prop where
  | here : Occurs q q
  | inside {c p : Predicate α} (child : c ∈ p.children) (h : Occurs q c) : Occurs q p

/-- The nodes without children, in tree order. -/
def leaves (p : Predicate α) : List (Predicate α) := p.nodes.filter fun q => q.children.isEmpty

theorem preorder_all_eq_flatMap (ps : List (Predicate α)) :
    preorderAll ps = ps.flatMap preorder := by
  induction ps with
  | nil => rfl
  | cons p ps ih => rw [preorderAll, ih, List.flatMap_cons]

theorem nodes_eq_cons (p : Predicate α) : p.nodes = p :: p.children.flatMap nodes := by
  have each : (nodes : Predicate α → List (Predicate α)) = preorder := funext nodes_eq_preorder
  rw [each, preorder_eq, preorder_all_eq_flatMap]

theorem mem_nodes_iff {p q : Predicate α} : q ∈ p.nodes ↔ q.Occurs p := by
  constructor
  · intro h
    induction p using tree_induction with
    | leaf p none =>
      rw [nodes_eq_cons, none] at h
      cases List.mem_singleton.mp h
      exact .here
    | boolean kind first rest ih =>
      rw [nodes_eq_cons] at h
      rcases List.mem_cons.mp h with rfl | h
      · exact .here
      · obtain ⟨c, hc, hq⟩ := List.mem_flatMap.mp h
        exact .inside hc (ih c hc hq)
    | boost query factor ih =>
      rw [nodes_eq_cons] at h
      rcases List.mem_cons.mp h with rfl | h
      · exact .here
      · obtain ⟨c, hc, hq⟩ := List.mem_flatMap.mp h
        cases List.mem_singleton.mp hc
        exact .inside hc (ih hq)
  · intro h
    induction h with
    | here =>
      rw [nodes_eq_cons]
      exact List.mem_cons_self
    | inside child _ ih =>
      rw [nodes_eq_cons]
      exact List.mem_cons_of_mem _ (List.mem_flatMap.mpr ⟨_, child, ih⟩)

theorem mem_fields_iff {p : Predicate α} {f : String} :
    f ∈ p.fields ↔ ∃ q : Predicate α, q.Occurs p ∧ q.field? = some f := by
  simp only [fields, List.mem_filterMap, mem_nodes_iff]

theorem mem_literals_iff {p : Predicate Value} {v : Value} :
    v ∈ p.literals ↔ ∃ q : Predicate Value, q.Occurs p ∧ q.literal? = some v := by
  simp only [literals, List.mem_filterMap, mem_nodes_iff]

/-- What holds of every field that stands in a predicate, at any depth. -/
theorem forall_mem_fields_iff {p : Predicate α} {P : String → Prop} :
    (∀ f ∈ p.fields, P f) ↔
      ∀ (q : Predicate α) f, q.Occurs p → q.field? = some f → P f := by
  constructor
  · exact fun h q f hq hf => h f (mem_fields_iff.mpr ⟨q, hq, hf⟩)
  · intro h f hf
    obtain ⟨q, hq, hf⟩ := mem_fields_iff.mp hf
    exact h q f hq hf

theorem forall_mem_literals_iff {p : Predicate Value} {P : Value → Prop} :
    (∀ v ∈ p.literals, P v) ↔
      ∀ (q : Predicate Value) v, q.Occurs p → q.literal? = some v → P v := by
  constructor
  · exact fun h q v hq hv => h v (mem_literals_iff.mpr ⟨q, hq, hv⟩)
  · intro h v hv
    obtain ⟨q, hq, hv⟩ := mem_literals_iff.mp hv
    exact h q v hq hv

theorem leaves_eq (p : Predicate α) :
    p.leaves = if p.children.isEmpty then [p] else p.children.flatMap leaves := by
  unfold leaves
  rw [nodes_eq_cons, List.filter_cons, List.filter_flatMap]
  by_cases h : p.children.isEmpty
  · simp [List.isEmpty_iff.mp h]
  · simp [h]

@[simp] theorem leaves_boolean (kind : Kind) (first : Predicate α) (rest : List (Predicate α)) :
    (Predicate.boolean kind first rest).leaves = (first :: rest).flatMap leaves := by
  rw [leaves_eq]
  rfl

@[simp] theorem leaves_boost (query : Predicate α) (factor : Factor) :
    (Predicate.boost query factor).leaves = query.leaves := by
  rw [leaves_eq]
  exact List.append_nil _

/-- A property that no inner node has is a property of leaves. -/
theorem filterMap_nodes {β : Type} {f : Predicate α → Option β}
    (inner : ∀ q : Predicate α, q.children ≠ [] → f q = none) (p : Predicate α) :
    p.nodes.filterMap f = p.leaves.filterMap f := by
  rw [leaves, List.filterMap_filter]
  congr 1
  funext q
  by_cases h : q.children = []
  · simp [h]
  · simp [h, inner q h]

theorem fields_eq_leaves (p : Predicate α) : p.fields = p.leaves.filterMap field? := by
  refine filterMap_nodes ?_ p
  intro q h
  cases q <;> first | rfl | exact absurd rfl h

theorem literals_eq_leaves (p : Predicate Value) :
    p.literals = p.leaves.filterMap literal? := by
  refine filterMap_nodes ?_ p
  intro q h
  cases q <;> first | rfl | exact absurd rfl h

theorem literals_eq (p : Predicate Value) :
    p.literals = p.literal?.toList ++ p.children.flatMap literals := by
  rw [literals, nodes_eq_cons, List.filterMap_cons, List.filterMap_flatMap]
  cases p.literal? <;> rfl

theorem literals_child {p q : Predicate Value} (h : q ∈ p.children) {v : Value}
    (hv : v ∈ q.literals) : v ∈ p.literals := by
  rw [literals_eq]
  exact List.mem_append_right _ (List.mem_flatMap.mpr ⟨q, h, hv⟩)

theorem mem_literals_of_literal {p : Predicate Value} {v : Value} (h : p.literal? = some v) :
    v ∈ p.literals := by
  rw [literals_eq, h]
  exact List.mem_cons_self

theorem foreign_mem_leaves {p : Predicate α} {typeName : String} :
    .foreign typeName ∈ p.leaves ↔ .foreign typeName ∈ p.nodes := by
  simp [leaves, children]

theorem leaves_rebuild_boolean (kind : Kind) (first : Predicate α) (rest : List (Predicate α))
    (child : Predicate α) (more : List (Predicate α)) :
    (rebuild (.boolean kind first rest) (child :: more)).leaves =
      (child :: more).flatMap leaves := by
  cases more with
  | nil => cases kind <;> simp [rebuild]
  | cons => cases kind <;> simp [rebuild]

@[simp] theorem leaves_collapse (p : Predicate α) : (collapse p).leaves = p.leaves := by
  induction p using tree_induction with
  | leaf p h => rw [collapse_eq_self_of_leaf h]
  | boolean kind first rest ih =>
    rw [collapse_eq_rebuild, children, List.map_cons, leaves_rebuild_boolean, ← List.map_cons,
      List.flatMap_map, leaves_boolean]
    exact List.flatMap_congr ih
  | boost query factor ih => rw [collapse, leaves_boost, leaves_boost, ih]

@[simp] theorem leaves_simplify (p : Predicate α) : p.simplify.leaves = p.leaves := by
  rw [simplify_eq_collapse, leaves_collapse]

end Predicate

namespace Entry

open Predicate

variable {α : Type}

@[simp] theorem leaves_combine (kind : Kind) (acc node : Predicate α) :
    (combine kind acc node).leaves = acc.leaves ++ node.leaves := by
  unfold combine
  split
  · split <;> simp
  · simp

@[simp] theorem leaves_joinTo (acc : Predicate α) (entry : Entry α) :
    (joinTo acc entry).leaves = acc.leaves ++ entry.node.leaves := by
  unfold joinTo
  split <;> simp

theorem leaves_fold_left (first : Predicate α) (entries : List (Entry α)) :
    (foldLeftToRight first entries).leaves =
      first.leaves ++ entries.flatMap (·.node.leaves) := by
  induction entries generalizing first with
  | nil => simp [foldLeftToRight]
  | cons e entries ih =>
    have step := ih (joinTo first e)
    rw [leaves_joinTo, List.append_assoc] at step
    exact step

@[simp] theorem Group.leaves_close (g : Group α) :
    g.close.leaves = (g.first :: g.rest).flatMap leaves := by
  unfold Group.close
  split
  · next h => simp [List.isEmpty_iff.mp h]
  · rw [leaves_boolean]

/-- The groups that are closed off by an `or`, as predicates. -/
def Groups.branches (gs : Groups α) : List (Predicate α) := gs.earlier.map Group.close

theorem Groups.leaves_close (gs : Groups α) :
    gs.close.leaves = gs.branches.flatMap leaves ++ gs.current.close.leaves := by
  unfold Groups.close Groups.branches
  cases gs.earlier with
  | nil => simp
  | cons g more => simp

theorem Groups.leaves_close_add (gs : Groups α) (entry : Entry α) :
    (gs.add entry).close.leaves = gs.close.leaves ++ entry.node.leaves := by
  rw [leaves_close, leaves_close]
  unfold Groups.add Groups.branches
  cases entry.op with
  | and => simp
  | or => simp
  | orAllPrior => simp [Group.close, leaves_close, branches]

theorem leaves_fold_groups (gs : Groups α) (entries : List (Entry α)) :
    (entries.foldl Groups.add gs).close.leaves =
      gs.close.leaves ++ entries.flatMap (·.node.leaves) := by
  induction entries generalizing gs with
  | nil => simp
  | cons e entries ih =>
    rw [List.foldl_cons, ih, Groups.leaves_close_add, List.append_assoc, List.flatMap_cons]

theorem leaves_fold (strategy : FoldStrategy) (first : Predicate α) (entries : List (Entry α)) :
    (fold strategy first entries).leaves = first.leaves ++ entries.flatMap (·.node.leaves) := by
  cases strategy with
  | leftToRight => exact leaves_fold_left first entries
  | andPrecedence =>
    rw [fold, foldAndPrecedence, leaves_fold_groups]
    simp [Groups.close]

theorem leaves_normalize {strategy : FoldStrategy} {entries : List (Entry α)}
    {root : Predicate α} (h : normalize strategy entries = some root) :
    root.leaves = entries.flatMap (·.node.leaves) := by
  cases entries with
  | nil => cases h
  | cons first rest =>
    cases h
    rw [leaves_fold, leaves_simplify, List.flatMap_map, List.flatMap_cons]
    congr 1
    exact List.flatMap_congr fun e _ => leaves_simplify e.node

end Entry

end SearchSql
