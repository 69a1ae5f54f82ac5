import Mathlib.Data.List.Basic
import SearchSql.Predicate.Folding

/-!
# Closed branches

A predicate that is joined by `orAllPrior` is an alternative to all that came before it, and what
came before becomes one branch. Whatever follows is put beside that branch or around it, never into
it: by either rule of grouping, the branch stands whole at the end of a way of first children, with
the joined predicate as its sibling (`prior_stands_whole`).
-/

namespace SearchSql

namespace Predicate

variable {α : Type}

/-- A predicate stands in another at the end of a way of first children. -/
inductive Leftmost (q : Predicate α) : Predicate α → Prop where
  | here : Leftmost q q
  | first {kind : Kind} {first : Predicate α} {rest : List (Predicate α)} (h : Leftmost q first) :
      Leftmost q (.boolean kind first rest)

/-- All that came before and the predicate that was set against it are the first two children of a
`should`, which stands leftmost. -/
def Alternatives (prior second root : Predicate α) : Prop :=
  ∃ more, (boolean .should prior (second :: more)).Leftmost root

theorem Alternatives.first {prior second first : Predicate α} (h : Alternatives prior second first)
    (kind : Kind) (rest : List (Predicate α)) :
    Alternatives prior second (.boolean kind first rest) := by
  obtain ⟨more, h⟩ := h
  exact ⟨more, .first h⟩

/-- More children at the end leave the first two where they are. -/
theorem Alternatives.append {prior second first : Predicate α} {kind : Kind}
    {rest : List (Predicate α)} (h : Alternatives prior second (.boolean kind first rest))
    (node : Predicate α) : Alternatives prior second (.boolean kind first (rest ++ [node])) := by
  obtain ⟨more, h⟩ := h
  cases h with
  | here => exact ⟨more ++ [node], .here⟩
  | first h => exact ⟨more, .first h⟩

end Predicate

namespace Entry

open Predicate

variable {α : Type} {prior second : Predicate α}

/-! ## From left to right -/

theorem alternatives_combine {acc : Predicate α} (h : Alternatives prior second acc) (kind : Kind)
    (node : Predicate α) : Alternatives prior second (combine kind acc node) := by
  unfold combine
  split
  · next k first rest =>
    -- A combination of the same kind grows at its end, any other becomes a first child.
    by_cases same : k = kind
    · rw [if_pos same, ← same]
      exact h.append node
    · rw [if_neg same]
      exact h.first kind [node]
  · exact h.first kind [node]

theorem alternatives_joinTo {acc : Predicate α} (h : Alternatives prior second acc)
    (entry : Entry α) : Alternatives prior second (joinTo acc entry) := by
  unfold joinTo
  split
  · exact alternatives_combine h .must entry.node
  · exact alternatives_combine h .should entry.node
  · exact h.first .should [entry.node]

theorem alternatives_fold_left {acc : Predicate α} (h : Alternatives prior second acc)
    (entries : List (Entry α)) : Alternatives prior second (foldLeftToRight acc entries) := by
  induction entries generalizing acc with
  | nil => exact h
  | cons entry entries ih => exact ih (alternatives_joinTo h entry)

/-! ## With `and` binding tighter -/

/-- The alternatives cannot be changed any more: the group of the second is closed, or both are in
a branch that was closed later. -/
inductive Groups.Holds (prior second : Predicate α) : Groups α → Prop where
  | apart {g : Group α} {more : List (Group α)} {current : Group α} (h : g.close = second) :
      Groups.Holds prior second ⟨⟨prior, []⟩ :: g :: more, current⟩
  | within {p : Predicate α} {more : List (Group α)} {current : Group α}
      (h : Alternatives prior second p) : Groups.Holds prior second ⟨⟨p, []⟩ :: more, current⟩

theorem Groups.Holds.close {gs : Groups α} (h : gs.Holds prior second) :
    Alternatives prior second gs.close := by
  cases h with
  | apart h =>
    subst h
    exact ⟨_, .here⟩
  | within h => exact h.first .should _

theorem Groups.Holds.add {gs : Groups α} (h : gs.Holds prior second) (entry : Entry α) :
    (gs.add entry).Holds prior second := by
  obtain ⟨op, node⟩ := entry
  -- `and` and `or` only move the open group, which is not among the groups that are fixed.
  cases op with
  | and =>
    cases h with
    | apart h => exact .apart h
    | within h => exact .within h
  | or =>
    cases h with
    | apart h => exact .apart h
    | within h => exact .within h
  | orAllPrior => exact .within h.close

theorem Groups.Holds.fold {gs : Groups α} (h : gs.Holds prior second)
    (entries : List (Entry α)) : (entries.foldl Groups.add gs).Holds prior second := by
  induction entries generalizing gs with
  | nil => exact h
  | cons entry entries ih => exact ih (h.add entry)

/-- The predicates at the front that are joined by `and`. -/
def leadingAnds (entries : List (Entry α)) : List (Predicate α) :=
  (entries.takeWhile (·.op = .and)).map (·.node)

/-- The group that is open when all before it is closed takes what is joined by `and` right behind
it, and nothing else. -/
theorem alternatives_fold_groups (node : Predicate α) (taken : List (Predicate α))
    (entries : List (Entry α)) :
    Alternatives prior (Group.close ⟨node, taken ++ leadingAnds entries⟩)
      (entries.foldl Groups.add ⟨[⟨prior, []⟩], ⟨node, taken⟩⟩).close := by
  -- The first entry that is no `and` fixes the second branch, and `Groups.Holds` carries the rest.
  induction entries generalizing taken with
  | nil =>
    rw [leadingAnds, List.takeWhile_nil, List.map_nil, List.append_nil]
    exact ⟨[], .here⟩
  | cons entry entries ih =>
    obtain ⟨op, next⟩ := entry
    cases op with
    | and =>
      have front : taken ++ leadingAnds (⟨.and, next⟩ :: entries) =
          taken ++ [next] ++ leadingAnds entries := by
        simp [leadingAnds]
      rw [front]
      exact ih (taken ++ [next])
    | or =>
      have front : taken ++ leadingAnds (⟨.or, next⟩ :: entries) = taken := by
        simp [leadingAnds]
      have apart : Groups.Holds prior (Group.close ⟨node, taken⟩)
          (Groups.add ⟨[⟨prior, []⟩], ⟨node, taken⟩⟩ ⟨.or, next⟩) := .apart rfl
      rw [front]
      exact (apart.fold entries).close
    | orAllPrior =>
      have front : taken ++ leadingAnds (⟨.orAllPrior, next⟩ :: entries) = taken := by
        simp [leadingAnds]
      have within : Groups.Holds prior (Group.close ⟨node, taken⟩)
          (Groups.add ⟨[⟨prior, []⟩], ⟨node, taken⟩⟩ ⟨.orAllPrior, next⟩) :=
        .within ⟨[], .here⟩
      rw [front]
      exact (within.fold entries).close

/-! ## Normalization -/

/-- What stands beside the prior branch: the joined predicate, with those that are joined to it by
`and` where this binds tighter. -/
def secondBranch (strategy : FoldStrategy) (node : Predicate α) (ands : List (Predicate α)) :
    Predicate α :=
  match strategy with
  | .leftToRight => node
  | .andPrecedence => Group.close ⟨node, ands⟩

theorem alternatives_fold (strategy : FoldStrategy) (first : Predicate α)
    (before : List (Entry α)) (node : Predicate α) (after : List (Entry α)) :
    Alternatives (fold strategy first before) (secondBranch strategy node (leadingAnds after))
      (fold strategy first (before ++ ⟨.orAllPrior, node⟩ :: after)) := by
  cases strategy with
  | leftToRight =>
    rw [fold, foldLeftToRight, foldLeftToRight, List.foldl_append, List.foldl_cons]
    exact alternatives_fold_left ⟨[], .here⟩ after
  | andPrecedence =>
    rw [fold, foldAndPrecedence, foldAndPrecedence, List.foldl_append, List.foldl_cons]
    exact alternatives_fold_groups node [] after

theorem secondBranch_cases (strategy : FoldStrategy) (node : Predicate α)
    (ands : List (Predicate α)) :
    secondBranch strategy node ands = node ∧ (strategy = .leftToRight ∨ ands = []) ∨
      strategy = .andPrecedence ∧ ands ≠ [] ∧
        secondBranch strategy node ands = .boolean .must node ands := by
  cases strategy with
  | leftToRight => exact Or.inl ⟨rfl, Or.inl rfl⟩
  | andPrecedence =>
    cases ands with
    | nil => exact Or.inl ⟨rfl, Or.inr rfl⟩
    | cons next more => exact Or.inr ⟨rfl, List.cons_ne_nil _ _, rfl⟩

/-- The predicates right behind a place that are joined by `and`, simplified. -/
def andsBehind (i : ℕ) (entries : List (Entry α)) : List (Predicate α) :=
  leadingAnds ((entries.drop (i + 1)).map simplify)

/-- By either rule of grouping, and wherever in a sequence a predicate is joined by `orAllPrior`:
what all before it is normalized to stands unchanged in what the whole is normalized to. It is the
first child of a `should` that is reached from the root by first children alone. The second child
is the joined predicate, simplified; only where `and` binds tighter and some predicates right behind
are joined by it, the second child is the `must` of the joined predicate and of those. -/
theorem prior_stands_whole (strategy : FoldStrategy) {entries : List (Entry α)} {i : ℕ}
    {entry : Entry α} (later : 0 < i) (found : entries[i]? = some entry)
    (joined : entry.op = .orAllPrior) :
    ∃ prior root second more, normalize strategy (entries.take i) = some prior ∧
      normalize strategy entries = some root ∧
      (boolean .should prior (second :: more)).Leftmost root ∧
      (second = entry.node.simplify ∧ (strategy = .leftToRight ∨ andsBehind i entries = []) ∨
        strategy = .andPrecedence ∧ andsBehind i entries ≠ [] ∧
          second = .boolean .must entry.node.simplify (andsBehind i entries)) := by
  obtain ⟨k, rfl⟩ : ∃ k, i = k + 1 := ⟨i - 1, by omega⟩
  cases entries with
  | nil => cases found
  | cons first rest =>
    rw [List.getElem?_cons_succ] at found
    obtain ⟨bound, here⟩ := List.getElem?_eq_some_iff.mp found
    have simplified : entry.simplify = ⟨.orAllPrior, entry.node.simplify⟩ := by
      rw [simplify, joined]
    have parted : rest.map simplify = (rest.take k).map simplify ++
        ⟨.orAllPrior, entry.node.simplify⟩ :: (rest.drop (k + 1)).map simplify := by
      rw [← simplified, ← here, ← List.map_cons, ← List.map_append, ← List.drop_eq_getElem_cons bound,
        List.take_append_drop]
    obtain ⟨more, stands⟩ := alternatives_fold strategy first.node.simplify
      ((rest.take k).map simplify) entry.node.simplify ((rest.drop (k + 1)).map simplify)
    rw [← parted] at stands
    exact ⟨_, _, _, more, rfl, rfl, stands, secondBranch_cases strategy _ _⟩

/-- Two alternatives, the second of which is a conjunction; one that is set against both, with a
condition; and another alternative. -/
def mixedSequence : List (Entry Value) :=
  [⟨.or, .parse "a"⟩, ⟨.or, .parse "b"⟩, ⟨.and, .boolean .should (.parse "c") []⟩,
    ⟨.orAllPrior, .boolean .must (.parse "d") []⟩, ⟨.and, .parse "e"⟩, ⟨.or, .parse "f"⟩]

theorem prior_stands_in_mixedSequence :
    mixedSequence[3]? = some ⟨.orAllPrior, .boolean .must (.parse "d") []⟩ ∧
      ∃ prior root more,
        normalize .andPrecedence (mixedSequence.take 3) = some prior ∧
        prior = .boolean .should (.parse "a") [.boolean .must (.parse "b") [.parse "c"]] ∧
        normalize .andPrecedence mixedSequence = some root ∧
        (boolean .should prior (.boolean .must (.parse "d") [.parse "e"] :: more)).Leftmost root := by
  have found : mixedSequence[3]? = some ⟨.orAllPrior, .boolean .must (.parse "d") []⟩ := rfl
  obtain ⟨prior, root, second, more, before, whole, stands, beside⟩ :=
    prior_stands_whole .andPrecedence (by decide) found rfl
  have kept : normalize .andPrecedence (mixedSequence.take 3) =
      some (.boolean .should (.parse "a") [.boolean .must (.parse "b") [.parse "c"]]) := by
    cbv
  have behind : andsBehind 3 mixedSequence = [.parse "e"] := by
    cbv
  have alone : Predicate.simplify (.boolean .must (.parse "d") []) = (.parse "d" : Predicate Value) := by
    cbv
  refine ⟨found, prior, root, more, before, ?_, whole, ?_⟩
  · exact Option.some.inj (before.symm.trans kept)
  · rcases beside with ⟨-, other | none⟩ | ⟨-, -, both⟩
    · cases other
    · rw [behind] at none
      cases none
    · rw [behind, alone] at both
      exact both ▸ stands

end Entry

end SearchSql
