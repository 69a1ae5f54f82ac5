import Mathlib.Data.List.SplitBy
import SearchSql.Proofs.Predicate.Leaves

/-!
# Meaning

The truth of a predicate, given the truth of its leaves. Normalizing a sequence gives a predicate
over the same leaves that is true exactly when the sequence, read by its rule of grouping, is
(`holds_normalize`).
-/

namespace SearchSql

/-- The truth of a combination, from the truth of its children. -/
def Kind.reads : Kind → List Bool → Bool
  | .must, truths => truths.all id
  | .should, truths => truths.any id
  | .mustNot, truths => ! truths.any id

theorem Kind.reads_append {kind : Kind} (h : kind ≠ .mustNot) (truths : List Bool) (t : Bool) :
    kind.reads (truths ++ [t]) = kind.reads [kind.reads truths, t] := by
  cases kind with
  | must => simp [reads]
  | should => simp [reads]
  | mustNot => exact absurd rfl h

def JoinOp.reads : JoinOp → Bool → Bool → Bool
  | .and, acc, t => acc && t
  | .or, acc, t => acc || t
  | .orAllPrior, acc, t => acc || t

/-- The truth of a sequence by a rule of grouping. From left to right it is that of the left fold.
With `and` binding tighter, some run must be true throughout; a run starts at the first entry and
at every later one that is not joined by `and`. How the first entry is joined does not matter. -/
def FoldStrategy.reads : FoldStrategy → List (JoinOp × Bool) → Bool
  | .leftToRight, [] => false
  | .leftToRight, (_, t) :: rest => rest.foldl (fun acc e => e.1.reads acc e.2) t
  | .andPrecedence, row => (row.splitBy fun _ e => e.1 = .and).any fun run => run.all (·.2)

namespace Predicate

variable {α : Type}

mutual

/-- The truth of a predicate whose leaves are numbered from `n` on, from left to right. What a leaf
says is judged for each place it stands in, so leaves that look alike need not agree. -/
def holds (truth : ℕ → Predicate α → Bool) (n : ℕ) : Predicate α → Bool
  | .boolean kind first rest =>
    kind.reads (holds truth n first :: holdsAll truth (n + first.leaves.length) rest)
  | .boost query _ => holds truth n query
  | leaf => truth n leaf

def holdsAll (truth : ℕ → Predicate α → Bool) (n : ℕ) : List (Predicate α) → List Bool
  | [] => []
  | p :: ps => holds truth n p :: holdsAll truth (n + p.leaves.length) ps

end

variable {truth : ℕ → Predicate α → Bool} {n : ℕ}

theorem holds_boolean (kind : Kind) (first : Predicate α) (rest : List (Predicate α)) :
    (Predicate.boolean kind first rest).holds truth n =
      kind.reads (holdsAll truth n (first :: rest)) := by
  rw [holds, holdsAll]

theorem holdsAll_concat (ps : List (Predicate α)) (q : Predicate α) :
    holdsAll truth n (ps ++ [q]) =
      holdsAll truth n ps ++ [q.holds truth (n + (ps.flatMap leaves).length)] := by
  induction ps generalizing n with
  | nil => simp [holdsAll]
  | cons p ps ih => simp [holdsAll, ih, Nat.add_assoc]

theorem holdsAll_map_collapse (ps : List (Predicate α))
    (ih : ∀ p ∈ ps, ∀ n, (collapse p).holds truth n = p.holds truth n) :
    holdsAll truth n (ps.map collapse) = holdsAll truth n ps := by
  induction ps generalizing n with
  | nil => rfl
  | cons p ps ihs =>
    rw [List.map_cons, holdsAll, holdsAll, leaves_collapse, ih p List.mem_cons_self,
      ihs fun q hq => ih q (List.mem_cons_of_mem p hq)]

/-- The node that is dropped says the same as its only child. -/
theorem holds_rebuild_boolean (kind : Kind) (first : Predicate α) (rest : List (Predicate α))
    (child : Predicate α) (more : List (Predicate α)) :
    (rebuild (.boolean kind first rest) (child :: more)).holds truth n =
      kind.reads (holdsAll truth n (child :: more)) := by
  cases more with
  | nil => cases kind <;> simp [rebuild, holds, holdsAll, Kind.reads]
  | cons => cases kind <;> rw [rebuild, holds_boolean] <;> simp

theorem holds_collapse (p : Predicate α) : (collapse p).holds truth n = p.holds truth n := by
  induction p using tree_induction generalizing n with
  | leaf p h => rw [collapse_eq_self_of_leaf h]
  | boolean kind first rest ih =>
    rw [collapse_eq_rebuild, children, List.map_cons, holds_rebuild_boolean, ← List.map_cons,
      holdsAll_map_collapse _ fun p hp _ => ih p hp, holds_boolean]
  | boost query factor ih => rw [collapse, holds, holds, ih]

end Predicate

namespace Entry

open Predicate

variable {α : Type} {truth : ℕ → Predicate α → Bool} {n : ℕ}

/-- How each entry is joined, and the truth of its own predicate. The leaves are numbered through
the whole sequence. -/
def truths (truth : ℕ → Predicate α → Bool) (n : ℕ) : List (Entry α) → List (JoinOp × Bool)
  | [] => []
  | e :: rest => (e.op, e.node.holds truth n) :: truths truth (n + e.node.leaves.length) rest

theorem truths_simplify (entries : List (Entry α)) :
    truths truth n (entries.map simplify) = truths truth n entries := by
  induction entries generalizing n with
  | nil => rfl
  | cons e rest ih =>
    rw [List.map_cons, truths, truths, ih]
    simp [simplify, simplify_eq_collapse, holds_collapse]

/-- Extending a `must` or `should` says the same as wrapping it. -/
theorem holds_combine {kind : Kind} (hk : kind ≠ .mustNot) (acc node : Predicate α) :
    (combine kind acc node).holds truth n =
      kind.reads [acc.holds truth n, node.holds truth (n + acc.leaves.length)] := by
  have wrapped : (Predicate.boolean kind acc [node]).holds truth n =
      kind.reads [acc.holds truth n, node.holds truth (n + acc.leaves.length)] := by
    simp [holds_boolean, holdsAll]
  unfold combine
  split
  · next k first rest =>
    by_cases same : k = kind
    · subst same
      rw [if_pos rfl, holds_boolean, ← List.cons_append, holdsAll_concat, Kind.reads_append hk,
        ← holds_boolean, leaves_boolean]
    · rw [if_neg same]
      exact wrapped
  · exact wrapped

theorem holds_joinTo (acc : Predicate α) (entry : Entry α) :
    (joinTo acc entry).holds truth n =
      entry.op.reads (acc.holds truth n) (entry.node.holds truth (n + acc.leaves.length)) := by
  unfold joinTo
  cases entry.op with
  | and => simp [holds_combine, Kind.reads, JoinOp.reads]
  | or => simp [holds_combine, Kind.reads, JoinOp.reads]
  | orAllPrior => simp [holds_boolean, holdsAll, Kind.reads, JoinOp.reads]

theorem holds_fold_left (acc : Predicate α) (entries : List (Entry α)) :
    (foldLeftToRight acc entries).holds truth n =
      (truths truth (n + acc.leaves.length) entries).foldl (fun t e => e.1.reads t e.2)
        (acc.holds truth n) := by
  induction entries generalizing acc with
  | nil => rfl
  | cons e rest ih =>
    have step := ih (joinTo acc e)
    rw [holds_joinTo, leaves_joinTo, List.length_append, ← Nat.add_assoc] at step
    exact step

theorem Group.holds_close (g : Group α) :
    g.close.holds truth n = (holdsAll truth n (g.first :: g.rest)).all id := by
  unfold Group.close
  split
  · next h => simp [List.isEmpty_iff.mp h, holdsAll]
  · rw [holds_boolean, Kind.reads]

theorem Group.holds_close_concat (g : Group α) (p : Predicate α) :
    (Group.close ⟨g.first, g.rest ++ [p]⟩).holds truth n =
      (g.close.holds truth n && p.holds truth (n + g.close.leaves.length)) := by
  rw [holds_close, holds_close, ← List.cons_append, holdsAll_concat, leaves_close]
  simp

theorem Groups.holds_close (gs : Groups α) :
    gs.close.holds truth n =
      ((holdsAll truth n gs.branches).any id ||
        gs.current.close.holds truth (n + (gs.branches.flatMap leaves).length)) := by
  unfold Groups.close Groups.branches
  cases gs.earlier with
  | nil => simp [holdsAll]
  | cons g more =>
    rw [List.map_cons, holds_boolean, ← List.cons_append, holdsAll_concat]
    simp [Kind.reads]

/-- The truth of a run that is going on, which the next entries may lengthen or end. -/
def openRun : Bool → List (JoinOp × Bool) → Bool
  | run, [] => run
  | run, (.and, t) :: rest => openRun (run && t) rest
  | run, (.or, t) :: rest => run || openRun t rest
  | run, (.orAllPrior, t) :: rest => run || openRun t rest

/-- The invariant of grouping: the closed groups are an alternative to the run that is going on. -/
theorem holds_fold_groups (gs : Groups α) (entries : List (Entry α)) :
    (entries.foldl Groups.add gs).close.holds truth n =
      ((holdsAll truth n gs.branches).any id ||
        openRun (gs.current.close.holds truth (n + (gs.branches.flatMap leaves).length))
          (truths truth (n + gs.close.leaves.length) entries)) := by
  induction entries generalizing gs with
  | nil => rw [List.foldl_nil, Groups.holds_close, truths, openRun]
  | cons e rest ih =>
    obtain ⟨op, node⟩ := e
    have place : n + (gs.close.leaves ++ node.leaves).length =
        n + gs.close.leaves.length + node.leaves.length := by
      rw [List.length_append, Nat.add_assoc]
    have current : n + gs.close.leaves.length =
        n + (gs.branches.flatMap leaves).length + gs.current.close.leaves.length := by
      rw [Groups.leaves_close, List.length_append, Nat.add_assoc]
    rw [List.foldl_cons, ih, Groups.leaves_close_add, place, truths]
    cases op with
    | and =>
      rw [openRun, current, ← Group.holds_close_concat]
      rfl
    | or =>
      have branches : (gs.add ⟨.or, node⟩).branches = gs.branches ++ [gs.current.close] := by
        simp [Groups.add, Groups.branches]
      rw [branches, holdsAll_concat, List.flatMap_append, openRun, current]
      simp [Groups.add, Group.close, Bool.or_assoc, Nat.add_assoc]
    | orAllPrior =>
      rw [openRun, ← Bool.or_assoc, ← Groups.holds_close]
      simp [Groups.add, Groups.branches, Group.close, holdsAll]

/-- The loop of `List.splitBy`, with the run that is going on and the earlier ones turned round. -/
theorem any_all_splitBy_loop (rest : List (JoinOp × Bool)) (e : JoinOp × Bool)
    (run : List (JoinOp × Bool)) (runs : List (List (JoinOp × Bool))) :
    ((List.splitBy.loop (fun _ e => decide (e.1 = .and)) rest e run runs).any
        fun run => run.all (·.2)) =
      (runs.any (fun run => run.all (·.2)) || openRun (run.all (·.2) && e.2) rest) := by
  induction rest generalizing e run runs with
  | nil => simp [List.splitBy.loop, openRun, Bool.or_comm]
  | cons next rest ih =>
    obtain ⟨op, t⟩ := next
    cases op with
    | and => simp [List.splitBy.loop, openRun, ih, Bool.and_comm]
    | or => simp [List.splitBy.loop, openRun, ih, Bool.or_assoc, Bool.or_left_comm]
    | orAllPrior => simp [List.splitBy.loop, openRun, ih, Bool.or_assoc, Bool.or_left_comm]

theorem holds_fold (strategy : FoldStrategy) (first : Entry α) (rest : List (Entry α)) :
    (fold strategy first.node rest).holds truth n =
      strategy.reads (truths truth n (first :: rest)) := by
  rw [truths]
  cases strategy with
  | leftToRight => exact holds_fold_left first.node rest
  | andPrecedence =>
    have start := any_all_splitBy_loop (truths truth (n + first.node.leaves.length) rest)
      (first.op, first.node.holds truth n) [] []
    rw [List.any_nil, Bool.false_or, List.all_nil, Bool.true_and] at start
    rw [fold, foldAndPrecedence, holds_fold_groups]
    exact start.symm

/-- Whatever the leaves say at their places: a sequence is normalized to a predicate with the same
leaves in the same order, and it is true exactly when the sequence is by the rule. -/
theorem holds_normalize (strategy : FoldStrategy) (truth : ℕ → Predicate α → Bool)
    (first : Entry α) (rest : List (Entry α)) :
    ∃ root, normalize strategy (first :: rest) = some root ∧
      root.leaves = (first :: rest).flatMap (·.node.leaves) ∧
      root.holds truth 0 = strategy.reads (truths truth 0 (first :: rest)) := by
  have normalized : normalize strategy (first :: rest) =
      some (fold strategy first.node.simplify (rest.map simplify)) := rfl
  refine ⟨_, normalized, leaves_normalize normalized, ?_⟩
  have folded := @holds_fold α truth 0 strategy first.simplify (rest.map simplify)
  rw [← List.map_cons, truths_simplify] at folded
  exact folded

/-- A needless group around the first of two leaves that differ, and one of them twice. -/
def mixedLeaves : List (Entry ℕ) :=
  [⟨.and, .boolean .must (.term "a" 1) []⟩, ⟨.or, .parse "b"⟩,
    ⟨.and, .boolean .mustNot (.term "a" 1) [.present "c"]⟩]

/-- Only the second leaf is true. -/
theorem holds_normalize_mixedLeaves :
    ∃ root, normalize .andPrecedence mixedLeaves = some root ∧
      root.leaves = [.term "a" 1, .parse "b", .term "a" 1, .present "c"] ∧
      root.holds (fun _ leaf => leaf matches .parse _) 0 = true := by
  obtain ⟨root, normalized, leaves, same⟩ : ∃ root,
      normalize .andPrecedence mixedLeaves = some root ∧
      root.leaves = mixedLeaves.flatMap (·.node.leaves) ∧
      root.holds (fun _ leaf => leaf matches .parse _) 0 =
        FoldStrategy.andPrecedence.reads
          (truths (fun _ leaf => leaf matches .parse _) 0 mixedLeaves) :=
    holds_normalize _ _ _ _
  refine ⟨root, normalized, ?_, ?_⟩
  · rw [leaves]
    simp [mixedLeaves, leaves_eq, children]
  · have row : truths (fun _ leaf => leaf matches .parse _) 0 mixedLeaves =
        [(.and, false), (.or, true), (.and, true)] := by
      simp [mixedLeaves, truths, holds, holdsAll, Kind.reads]
    rw [same, row]
    decide

/-- The two rules differ on `a or b and c` where `a` is true and `c` is not. -/
example : FoldStrategy.leftToRight.reads [(.and, true), (.or, true), (.and, false)] = false ∧
    FoldStrategy.andPrecedence.reads [(.and, true), (.or, true), (.and, false)] = true := by
  decide

end Entry

end SearchSql
