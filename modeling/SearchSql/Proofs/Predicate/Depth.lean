import Mathlib.Data.List.Induction
import Mathlib.Data.List.Nodup
import Mathlib.Order.Nat
import SearchSql.Proofs.Predicate.Leaves
import SearchSql.Proofs.Predicate.Precedence

/-!
# Nesting depth

Simplification makes no predicate deeper (`depth_simplify_le`), and folding a sequence adds few
levels to the deepest of its predicates: from left to right, one for each place at which the way of
joining changes (`depth_fold_left_le`); with `and` binding tighter, two and one more for each
`orAllPrior` (`depth_fold_groups_le`).
-/

namespace SearchSql

namespace Predicate

variable {α : Type}

/-! ## Depth by children -/

theorem depthAll_le_iff {ps : List (Predicate α)} {d : ℕ} :
    depthAll ps ≤ d ↔ ∀ p ∈ ps, p.depth ≤ d := by
  induction ps with
  | nil => simp [depthAll]
  | cons p ps ih => rw [depthAll, Nat.max_le, ih, List.forall_mem_cons]

theorem depth_le_depthAll {q : Predicate α} {ps : List (Predicate α)} (h : q ∈ ps) :
    q.depth ≤ depthAll ps := depthAll_le_iff.mp le_rfl q h

theorem depth_eq (p : Predicate α) : p.depth = 1 + depthAll p.children := by
  cases p <;> simp [depth, depthAll, children]

theorem depth_child {p q : Predicate α} (h : q ∈ p.children) : q.depth < p.depth := by
  rw [depth_eq p]
  exact Nat.lt_one_add_iff.mpr (depth_le_depthAll h)

theorem depth_boolean_le_iff {kind : Kind} {first : Predicate α} {rest : List (Predicate α)}
    {d : ℕ} : (boolean kind first rest).depth ≤ d + 1 ↔ ∀ p ∈ first :: rest, p.depth ≤ d := by
  rw [depth_eq, Nat.add_comm, Nat.add_le_add_iff_right]
  exact depthAll_le_iff

/-! ## Simplification -/

theorem depth_rebuild_boolean_le (kind : Kind) (first : Predicate α) (rest : List (Predicate α))
    {child : Predicate α} {more : List (Predicate α)} {d : ℕ}
    (h : ∀ p ∈ child :: more, p.depth ≤ d) :
    (rebuild (.boolean kind first rest) (child :: more)).depth ≤ d + 1 := by
  have kept : (boolean kind child more).depth ≤ d + 1 := depth_boolean_le_iff.mpr h
  cases more with
  | nil =>
    have alone : child.depth ≤ d + 1 := Nat.le_succ_of_le (h child List.mem_cons_self)
    cases kind with
    | mustNot => exact kept
    | _ => exact alone
  | cons next more => cases kind <;> exact kept

theorem depth_collapse_le (p : Predicate α) : (collapse p).depth ≤ p.depth := by
  induction p using tree_induction with
  | leaf p leaf => exact (congrArg depth (collapse_eq_self_of_leaf leaf)).le
  | boolean kind first rest ih =>
    have inner : ∀ p ∈ (first :: rest).map collapse, p.depth ≤ depthAll (first :: rest) := by
      refine List.forall_mem_map.mpr fun p hp => ?_
      exact (ih p hp).trans (depth_le_depthAll hp)
    rw [collapse_eq_rebuild, depth_eq (.boolean kind first rest), Nat.add_comm, children,
      List.map_cons]
    exact depth_rebuild_boolean_le kind first rest inner
  | boost query factor ih =>
    rw [collapse, depth, depth]
    exact Nat.add_le_add_left ih 1

theorem depth_simplify_le (p : Predicate α) : p.simplify.depth ≤ p.depth := by
  rw [simplify_eq_collapse]
  exact depth_collapse_le p

end Predicate

/-- The kind of the combination that an operator makes. -/
def JoinOp.kind : JoinOp → Kind
  | .and => .must
  | .or => .should
  | .orAllPrior => .should

namespace Entry

open Predicate

variable {α : Type} {d : ℕ}

/-! ## From left to right -/

/-- A place behind the first at which another level begins: the second place, the place of an
`orAllPrior`, or one whose operator makes another kind of combination than the operator before. -/
def beginsLevel (ops : List JoinOp) (i : ℕ) : Bool :=
  0 < i && (i = 1 || ops[i]? = some .orAllPrior ||
    ops[i]?.map JoinOp.kind ≠ ops[i - 1]?.map JoinOp.kind)

/-- The number of places at which another level begins. -/
def levels (ops : List JoinOp) : ℕ := (List.range ops.length).countP (beginsLevel ops)

theorem levels_concat (ops : List JoinOp) (op : JoinOp) :
    levels (ops ++ [op]) =
      levels ops + if beginsLevel (ops ++ [op]) ops.length then 1 else 0 := by
  have before : ∀ i ∈ List.range ops.length,
      beginsLevel (ops ++ [op]) i = true ↔ beginsLevel ops i = true := by
    intro i hi
    have inside : i < ops.length := List.mem_range.mp hi
    have earlier : i - 1 < ops.length := by omega
    rw [beginsLevel, beginsLevel, List.getElem?_append_left inside,
      List.getElem?_append_left earlier]
  rw [levels, levels, List.length_append, List.length_singleton, List.range_succ,
    List.countP_append, List.countP_congr before, List.countP_singleton]

theorem beginsLevel_last {ops : List JoinOp} {before op : JoinOp}
    (h : op = .orAllPrior ∨ before.kind ≠ op.kind) :
    beginsLevel (ops ++ [before] ++ [op]) (ops ++ [before]).length = true := by
  rcases h with rfl | turned
  · simp [beginsLevel]
  · simp [beginsLevel, turned.symm]

/-- A row of one operator, if it is no `orAllPrior`, begins a level at the second place only. -/
theorem levels_le_one {first op : JoinOp} {rest : List JoinOp} (other : op ≠ .orAllPrior)
    (same : ∀ o ∈ rest, o = op) : levels (first :: rest) ≤ 1 := by
  have second : ∀ i ∈ List.range (first :: rest).length,
      beginsLevel (first :: rest) i = true → (i == 1) = true := by
    intro i hi begins
    have inside : i < (first :: rest).length := List.mem_range.mp hi
    by_contra away
    obtain ⟨j, rfl⟩ : ∃ j, i = j + 2 := by
      refine ⟨i - 2, ?_⟩
      simp only [beginsLevel, Bool.and_eq_true, decide_eq_true_eq] at begins
      have := begins.1
      simp only [beq_iff_eq] at away
      omega
    rw [List.length_cons] at inside
    have here : rest[j + 1]? = some op := by
      rw [List.getElem?_eq_getElem (by omega), same _ (List.getElem_mem _)]
    have there : rest[j]? = some op := by
      rw [List.getElem?_eq_getElem (by omega), same _ (List.getElem_mem _)]
    simp [beginsLevel, here, there, other] at begins
  calc levels (first :: rest)
      ≤ (List.range (first :: rest).length).countP (· == 1) := List.countP_mono_left second
    _ ≤ 1 := List.nodup_iff_count_le_one.mp List.nodup_range 1

theorem isOf_combine (kind : Kind) (acc node : Predicate α) :
    (combine kind acc node).IsOf kind := by
  by_cases same : acc.IsOf kind
  · obtain ⟨first, rest, rfl⟩ := same
    rw [combine_boolean]
    exact ⟨_, _, rfl⟩
  · rw [combine_of_not_isOf same]
    exact ⟨_, _, rfl⟩

/-- A combination that is extended does not become deeper but by what is put into it. -/
theorem depth_combine_of_isOf {kind : Kind} {acc node : Predicate α} {b : ℕ}
    (same : acc.IsOf kind) (hacc : acc.depth ≤ b + 1) (hnode : node.depth ≤ b) :
    (combine kind acc node).depth ≤ b + 1 := by
  obtain ⟨first, rest, rfl⟩ := same
  rw [combine_boolean, depth_boolean_le_iff, ← List.cons_append]
  exact List.forall_mem_append.mpr
    ⟨depth_boolean_le_iff.mp hacc, List.forall_mem_singleton.mpr hnode⟩

theorem depth_pair_le {kind : Kind} {p q : Predicate α} {b : ℕ} (hp : p.depth ≤ b)
    (hq : q.depth ≤ b) : (boolean kind p [q]).depth ≤ b + 1 :=
  depth_boolean_le_iff.mpr (List.forall_mem_cons.mpr ⟨hp, List.forall_mem_singleton.mpr hq⟩)

theorem depth_combine_le {kind : Kind} {acc node : Predicate α} {b : ℕ} (hacc : acc.depth ≤ b)
    (hnode : node.depth ≤ b) : (combine kind acc node).depth ≤ b + 1 := by
  by_cases same : acc.IsOf kind
  · exact depth_combine_of_isOf same (Nat.le_succ_of_le hacc) hnode
  · rw [combine_of_not_isOf same]
    exact depth_pair_le hacc hnode

theorem joinTo_eq_combine {entry : Entry α} (other : entry.op ≠ .orAllPrior) (acc : Predicate α) :
    joinTo acc entry = combine entry.op.kind acc entry.node := by
  obtain ⟨op, node⟩ := entry
  cases op with
  | and => rfl
  | or => rfl
  | orAllPrior => exact absurd rfl other

theorem isOf_joinTo (acc : Predicate α) (entry : Entry α) :
    (joinTo acc entry).IsOf entry.op.kind := by
  by_cases prior : entry.op = .orAllPrior
  · rw [joinTo, prior]
    exact ⟨_, _, rfl⟩
  · rw [joinTo_eq_combine prior]
    exact isOf_combine entry.op.kind acc entry.node

theorem depth_joinTo_le {acc : Predicate α} {entry : Entry α} {b : ℕ} (hacc : acc.depth ≤ b)
    (hnode : entry.node.depth ≤ b) : (joinTo acc entry).depth ≤ b + 1 := by
  by_cases prior : entry.op = .orAllPrior
  · rw [joinTo, prior]
    exact depth_pair_le hacc hnode
  · rw [joinTo_eq_combine prior]
    exact depth_combine_le hacc hnode

/-- The last operator decides of what kind the whole is, so the next one of that kind only extends
it. -/
theorem depth_fold_concat_le (op : JoinOp) {first : Predicate α} (hfirst : first.depth ≤ d)
    (rest : List (Entry α)) (last : Entry α) (h : ∀ e ∈ rest ++ [last], e.node.depth ≤ d) :
    (foldLeftToRight first (rest ++ [last])).IsOf last.op.kind ∧
      1 ≤ levels (op :: (rest ++ [last]).map (·.op)) ∧
      (foldLeftToRight first (rest ++ [last])).depth ≤
        d + levels (op :: (rest ++ [last]).map (·.op)) := by
  induction rest using List.reverseRecOn generalizing last with
  | nil =>
    have two : levels [op, last.op] = 1 := by
      simp [levels, beginsLevel, List.range_succ]
    refine ⟨isOf_joinTo first last, two.ge, ?_⟩
    rw [List.nil_append, List.map_singleton, two]
    exact depth_joinTo_le hfirst (h last List.mem_cons_self)
  | append_singleton rest before ih =>
    obtain ⟨hrest, hlast⟩ := List.forall_mem_append.mp h
    obtain ⟨kind, some, bound⟩ := ih before hrest
    have hnode : last.node.depth ≤ d := hlast last List.mem_cons_self
    have joined : foldLeftToRight first (rest ++ [before] ++ [last]) =
        joinTo (foldLeftToRight first (rest ++ [before])) last := by
      rw [foldLeftToRight, List.foldl_append]
      rfl
    rw [joined, List.map_append, List.map_singleton, ← List.cons_append, levels_concat]
    refine ⟨isOf_joinTo _ last, Nat.le_add_right_of_le some, ?_⟩
    by_cases turns : last.op = .orAllPrior ∨ before.op.kind ≠ last.op.kind
    · have begins : beginsLevel (op :: (rest ++ [before]).map (·.op) ++ [last.op])
          (op :: (rest ++ [before]).map (·.op)).length = true := by
        rw [List.map_append, List.map_singleton, ← List.cons_append]
        exact beginsLevel_last turns
      rw [if_pos begins, ← Nat.add_assoc]
      exact depth_joinTo_le bound (hnode.trans (Nat.le_add_right _ _))
    · obtain ⟨other, same⟩ := not_or.mp turns
      generalize levels (op :: (rest ++ [before]).map (·.op)) = c at some bound
      obtain ⟨c, rfl⟩ : ∃ c', c = c' + 1 := ⟨c - 1, by omega⟩
      have extended : (combine before.op.kind _ last.node).depth ≤ d + (c + 1) :=
        depth_combine_of_isOf kind bound (hnode.trans (Nat.le_add_right _ _))
      rw [joinTo_eq_combine other, ← not_not.mp same]
      exact extended.trans (Nat.add_le_add_left (Nat.le_add_right _ _) d)

/-- Folding from left to right adds one level for each place at which one begins. -/
theorem depth_fold_left_le (op : JoinOp) {first : Predicate α} (hfirst : first.depth ≤ d)
    {rest : List (Entry α)} (h : ∀ e ∈ rest, e.node.depth ≤ d) :
    (foldLeftToRight first rest).depth ≤ d + levels (op :: rest.map (·.op)) := by
  rcases List.eq_nil_or_concat rest with rfl | ⟨before, last, rfl⟩
  · exact hfirst.trans (Nat.le_add_right _ _)
  · rw [List.concat_eq_append] at h ⊢
    exact (depth_fold_concat_le op hfirst before last h).2.2

/-! ## With `and` binding tighter -/

theorem Group.depth_close_le {g : Group α} {b : ℕ} (h : ∀ p ∈ g.first :: g.rest, p.depth ≤ b) :
    g.close.depth ≤ b + 1 := by
  unfold Group.close
  split
  · exact Nat.le_succ_of_le (h g.first List.mem_cons_self)
  · exact depth_boolean_le_iff.mpr h

theorem Groups.depth_close_le {gs : Groups α} {b : ℕ}
    (h : ∀ g ∈ gs.earlier ++ [gs.current], g.close.depth ≤ b) : gs.close.depth ≤ b + 1 := by
  unfold Groups.close
  cases hearlier : gs.earlier with
  | nil =>
    rw [hearlier] at h
    exact Nat.le_succ_of_le (h gs.current List.mem_cons_self)
  | cons g more =>
    rw [hearlier] at h
    obtain ⟨hearly, hcurrent⟩ := List.forall_mem_append.mp h
    obtain ⟨hg, hmore⟩ := List.forall_mem_cons.mp hearly
    refine depth_boolean_le_iff.mpr (List.forall_mem_cons.mpr ⟨hg, ?_⟩)
    refine List.forall_mem_append.mpr ⟨List.forall_mem_map.mpr hmore, ?_⟩
    exact List.forall_mem_singleton.mpr (hcurrent gs.current List.mem_cons_self)

/-- The predicates of the open group are as deep as those of the sequence at most. What is closed
already may be deeper, but stays below the bound on the whole. -/
structure Groups.Within (d b : ℕ) (gs : Groups α) : Prop where
  room : d + 2 ≤ b
  earlier : ∀ g ∈ gs.earlier, g.close.depth + 1 ≤ b
  current : ∀ p ∈ gs.current.first :: gs.current.rest, p.depth ≤ d

theorem Groups.Within.depth_current {gs : Groups α} {b : ℕ} (h : gs.Within d b) :
    gs.current.close.depth + 1 ≤ b := by
  have := Group.depth_close_le h.current
  have := h.room
  omega

theorem Groups.Within.depth_close {gs : Groups α} {b : ℕ} (h : gs.Within d b) :
    gs.close.depth ≤ b := by
  obtain ⟨b, rfl⟩ : ∃ b', b = b' + 1 := ⟨b - 1, by have := h.room; omega⟩
  refine Groups.depth_close_le (List.forall_mem_append.mpr ⟨?_, ?_⟩)
  · intro g hg
    exact Nat.le_of_succ_le_succ (h.earlier g hg)
  · exact List.forall_mem_singleton.mpr (Nat.le_of_succ_le_succ h.depth_current)

/-- Only `orAllPrior` needs more room, as it closes everything into one branch. -/
theorem Groups.Within.add {gs : Groups α} {b : ℕ} (h : gs.Within d b) {entry : Entry α}
    (hnode : entry.node.depth ≤ d) :
    (gs.add entry).Within d (b + if entry.op = .orAllPrior then 1 else 0) := by
  have alone : ∀ p ∈ [entry.node], p.depth ≤ d := List.forall_mem_singleton.mpr hnode
  unfold Groups.add
  cases entry.op with
  | and =>
    refine ⟨h.room, h.earlier, ?_⟩
    show ∀ p ∈ gs.current.first :: (gs.current.rest ++ [entry.node]), p.depth ≤ d
    rw [← List.cons_append]
    exact List.forall_mem_append.mpr ⟨h.current, alone⟩
  | or =>
    refine ⟨h.room, ?_, alone⟩
    exact List.forall_mem_append.mpr
      ⟨h.earlier, List.forall_mem_singleton.mpr h.depth_current⟩
  | orAllPrior =>
    refine ⟨Nat.le_succ_of_le h.room, ?_, alone⟩
    exact List.forall_mem_singleton.mpr (Nat.succ_le_succ h.depth_close)

theorem Groups.Within.fold {gs : Groups α} {b : ℕ} (h : gs.Within d b) {entries : List (Entry α)}
    (hentries : ∀ e ∈ entries, e.node.depth ≤ d) :
    (entries.foldl Groups.add gs).Within d (b + entries.countP (·.op = .orAllPrior)) := by
  induction entries generalizing gs b with
  | nil => exact h
  | cons e entries ih =>
    obtain ⟨he, hentries⟩ := List.forall_mem_cons.mp hentries
    have more := ih (h.add he) hentries
    have room : b + (if e.op = .orAllPrior then 1 else 0) + entries.countP (·.op = .orAllPrior) =
        b + (e :: entries).countP (·.op = .orAllPrior) := by
      simp only [List.countP_cons, decide_eq_true_eq]
      omega
    rwa [room] at more

theorem depth_fold_groups_le {first : Predicate α} (hfirst : first.depth ≤ d)
    {rest : List (Entry α)} (h : ∀ e ∈ rest, e.node.depth ≤ d) :
    (foldAndPrecedence first rest).depth ≤ d + 2 + rest.countP (·.op = .orAllPrior) := by
  have start : Groups.Within d (d + 2) ⟨[], ⟨first, []⟩⟩ :=
    ⟨le_rfl, List.forall_mem_nil _, List.forall_mem_singleton.mpr hfirst⟩
  exact (start.fold h).depth_close

/-! ## Rows of one operator -/

/-- A row of `or` leaves every predicate in a group of its own. -/
theorem depth_fold_ors_le {gs : Groups α}
    (hgs : ∀ g ∈ gs.earlier ++ [gs.current], g.close.depth ≤ d)
    {entries : List (Entry α)} (ors : ∀ e ∈ entries, e.op = .or)
    (h : ∀ e ∈ entries, e.node.depth ≤ d) : (entries.foldl Groups.add gs).close.depth ≤ d + 1 := by
  induction entries generalizing gs with
  | nil => exact Groups.depth_close_le hgs
  | cons e entries ih =>
    obtain ⟨op, node⟩ := e
    obtain ⟨rfl, laterOrs⟩ := List.forall_mem_cons.mp ors
    obtain ⟨hnode, later⟩ := List.forall_mem_cons.mp h
    have closed : ∀ g ∈ gs.earlier ++ [gs.current] ++ [⟨node, []⟩], g.close.depth ≤ d :=
      List.forall_mem_append.mpr ⟨hgs, List.forall_mem_singleton.mpr hnode⟩
    exact @ih ⟨gs.earlier ++ [gs.current], ⟨node, []⟩⟩ closed laterOrs later

/-- By either rule of grouping a row of `and`s, or one of `or`s, adds one level. -/
theorem depth_fold_row_le (strategy : FoldStrategy) {op : JoinOp} (other : op ≠ .orAllPrior)
    {first : Predicate α} (hfirst : first.depth ≤ d) {rest : List (Entry α)}
    (same : ∀ e ∈ rest, e.op = op) (h : ∀ e ∈ rest, e.node.depth ≤ d) :
    (fold strategy first rest).depth ≤ d + 1 := by
  cases strategy with
  | leftToRight =>
    refine (depth_fold_left_le op hfirst h).trans (Nat.add_le_add_left ?_ d)
    exact levels_le_one other (List.forall_mem_map.mpr same)
  | andPrecedence =>
    cases op with
    | and =>
      rw [fold, foldAndPrecedence, foldl_add_ands _ same]
      refine Group.depth_close_le (List.forall_mem_cons.mpr ⟨hfirst, ?_⟩)
      exact List.forall_mem_map.mpr h
    | or =>
      have start : ∀ g ∈ [Group.mk first []], g.close.depth ≤ d :=
        List.forall_mem_singleton.mpr hfirst
      exact @depth_fold_ors_le _ _ ⟨[], ⟨first, []⟩⟩ start _ same h
    | orAllPrior => exact absurd rfl other

end Entry

end SearchSql
