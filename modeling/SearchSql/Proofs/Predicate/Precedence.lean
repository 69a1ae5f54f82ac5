import Mathlib.Data.List.Basic
import SearchSql.Predicate.Folding

/-!
# Where precedence does not matter

The two rules of grouping read a sequence alike if no `and` comes behind an `or`: there is nothing
to bind tighter. The fold from left to right then keeps the one predicate that the groups of the
other rule would be closed into (`joinTo_close`), so both end with the same tree
(`strategies_agree`).
-/

namespace SearchSql

namespace Predicate

variable {α : Type}

/-- The predicate is a boolean combination of the given kind. -/
def IsOf (kind : Kind) (p : Predicate α) : Prop := ∃ first rest, p = .boolean kind first rest

end Predicate

namespace Entry

open Predicate

variable {α : Type}

/-- What is no combination of the kind is wrapped. -/
theorem combine_of_not_isOf {kind : Kind} {acc : Predicate α} (other : ¬ acc.IsOf kind)
    (node : Predicate α) : combine kind acc node = .boolean kind acc [node] := by
  unfold combine
  split
  · next k first rest =>
    have differs : k ≠ kind := by
      rintro rfl
      exact other ⟨first, rest, rfl⟩
    rw [if_neg differs]
  · rfl

theorem combine_boolean (kind : Kind) (first : Predicate α) (rest : List (Predicate α))
    (node : Predicate α) :
    combine kind (.boolean kind first rest) node = .boolean kind first (rest ++ [node]) := by
  rw [combine, if_pos rfl]

/-! ## A row of `and` -/

/-- A group is closed into what the `and`s make of its predicates one after the other. -/
theorem combine_close {g : Group α} (other : ¬ g.first.IsOf .must) (node : Predicate α) :
    combine .must g.close node = Group.close ⟨g.first, g.rest ++ [node]⟩ := by
  obtain ⟨first, rest⟩ := g
  cases rest with
  | nil => exact combine_of_not_isOf other node
  | cons next rest => exact combine_boolean .must first (next :: rest) node

theorem foldl_joinTo_ands {g : Group α} (other : ¬ g.first.IsOf .must) {entries : List (Entry α)}
    (ands : ∀ e ∈ entries, e.op = .and) :
    entries.foldl joinTo g.close = Group.close ⟨g.first, g.rest ++ entries.map (·.node)⟩ := by
  induction entries generalizing g with
  | nil => simp
  | cons e entries ih =>
    obtain ⟨op, node⟩ := e
    obtain ⟨rfl, hentries⟩ := List.forall_mem_cons.mp ands
    have longer := ih (g := ⟨g.first, g.rest ++ [node]⟩) other hentries
    rw [List.append_assoc, ← combine_close other node] at longer
    exact longer

theorem foldl_add_ands (gs : Groups α) {entries : List (Entry α)}
    (ands : ∀ e ∈ entries, e.op = .and) :
    entries.foldl Groups.add gs =
      ⟨gs.earlier, ⟨gs.current.first, gs.current.rest ++ entries.map (·.node)⟩⟩ := by
  induction entries generalizing gs with
  | nil => simp
  | cons e entries ih =>
    obtain ⟨op, node⟩ := e
    obtain ⟨rfl, hentries⟩ := List.forall_mem_cons.mp ands
    rw [List.foldl_cons, ih _ hentries]
    simp [Groups.add]

/-! ## Alternatives -/

/-- Closing the groups gives a `should` of their alternatives, or something that an alternative
does not extend. -/
def Groups.Extensible (gs : Groups α) : Prop := gs.earlier = [] → ¬ gs.current.close.IsOf .should

/-- One step of the two folds, where no `and` is left. The one predicate is what the groups are
closed into, before and after. -/
theorem joinTo_close {gs : Groups α} (h : gs.Extensible) {entry : Entry α}
    (joined : entry.op ≠ .and) :
    joinTo gs.close entry = (gs.add entry).close ∧ (gs.add entry).Extensible := by
  obtain ⟨op, node⟩ := entry
  cases op with
  | and => exact absurd rfl joined
  | or =>
    obtain ⟨earlier, current⟩ := gs
    cases earlier with
    | nil => exact ⟨combine_of_not_isOf (h rfl) node, nofun⟩
    | cons g more =>
      refine ⟨?_, nofun⟩
      -- The open group is one of the alternatives already when the next one opens.
      have extended := combine_boolean .should g.close (more.map Group.close ++ [current.close]) node
      rw [joinTo, Groups.close, extended]
      simp [Groups.add, Groups.close, Group.close]
  | orAllPrior => exact ⟨rfl, nofun⟩

theorem foldl_joinTo_alternatives {gs : Groups α} (h : gs.Extensible) {entries : List (Entry α)}
    (alternatives : ∀ e ∈ entries, e.op ≠ .and) :
    entries.foldl joinTo gs.close = (entries.foldl Groups.add gs).close := by
  induction entries generalizing gs with
  | nil => rfl
  | cons e entries ih =>
    obtain ⟨joined, alternatives⟩ := List.forall_mem_cons.mp alternatives
    obtain ⟨same, extensible⟩ := joinTo_close h joined
    rw [List.foldl_cons, List.foldl_cons, same]
    exact ih extensible alternatives

/-! ## Both together -/

/-- A conjunction is no alternative, unless it is a single predicate that is one. -/
theorem not_isOf_close {g : Group α} (other : ¬ g.first.IsOf .should) :
    ¬ g.close.IsOf .should := by
  obtain ⟨first, rest⟩ := g
  cases rest with
  | nil => exact other
  | cons next rest =>
    rintro ⟨p, ps, same⟩
    cases same

theorem foldLeftToRight_eq_foldAndPrecedence {first : Predicate α} (noMust : ¬ first.IsOf .must)
    (noShould : ¬ first.IsOf .should) {ands alternatives : List (Entry α)}
    (hands : ∀ e ∈ ands, e.op = .and) (halternatives : ∀ e ∈ alternatives, e.op ≠ .and) :
    foldLeftToRight first (ands ++ alternatives) =
      foldAndPrecedence first (ands ++ alternatives) := by
  have conjunction : ands.foldl joinTo first = Group.close ⟨first, ands.map (·.node)⟩ :=
    foldl_joinTo_ands (g := ⟨first, []⟩) noMust hands
  have extensible : Groups.Extensible ⟨[], ⟨first, ands.map (·.node)⟩⟩ := fun _ =>
    not_isOf_close noShould
  calc foldLeftToRight first (ands ++ alternatives)
      = alternatives.foldl joinTo (Groups.close ⟨[], ⟨first, ands.map (·.node)⟩⟩) := by
        rw [foldLeftToRight, List.foldl_append, conjunction]
        rfl
    _ = (alternatives.foldl Groups.add ⟨[], ⟨first, ands.map (·.node)⟩⟩).close :=
        foldl_joinTo_alternatives extensible halternatives
    _ = foldAndPrecedence first (ands ++ alternatives) := by
        rw [foldAndPrecedence, List.foldl_append, foldl_add_ands _ hands]
        rfl

/-- Sequences of a first predicate, others that are joined by `and`, and then others that are not,
are normalized to the same predicate by either rule of grouping, if the first one, simplified, is
neither a `must` nor a `should`. -/
theorem strategies_agree {first : Entry α} {ands alternatives : List (Entry α)}
    (start : ∀ kind p ps, first.node.simplify = .boolean kind p ps → kind = .mustNot)
    (hands : ∀ e ∈ ands, e.op = .and)
    (halternatives : ∀ e ∈ alternatives, e.op = .or ∨ e.op = .orAllPrior) :
    ∃ root, normalize .leftToRight (first :: (ands ++ alternatives)) = some root ∧
      normalize .andPrecedence (first :: (ands ++ alternatives)) = some root := by
  have noMust : ¬ first.node.simplify.IsOf .must := by
    rintro ⟨p, ps, same⟩
    cases start _ p ps same
  have noShould : ¬ first.node.simplify.IsOf .should := by
    rintro ⟨p, ps, same⟩
    cases start _ p ps same
  have simplifiedAnds : ∀ e ∈ ands.map simplify, e.op = .and := List.forall_mem_map.mpr hands
  have simplifiedAlternatives : ∀ e ∈ alternatives.map simplify, e.op ≠ .and := by
    refine List.forall_mem_map.mpr fun e he same => ?_
    rcases halternatives e he with or | orAllPrior
    · cases or.symm.trans same
    · cases orAllPrior.symm.trans same
  refine ⟨_, rfl, congrArg some ?_⟩
  rw [List.map_append]
  exact (foldLeftToRight_eq_foldAndPrecedence noMust noShould simplifiedAnds
    simplifiedAlternatives).symm

/-- A negation, wrapped in a conjunction of one. -/
def negated : Entry Value := ⟨.or, .boolean .must (.boolean .mustNot (.parse "a") []) []⟩

/-- A condition that is a choice itself. -/
def conditions : List (Entry Value) := [⟨.and, .boolean .should (.parse "b") [.parse "c"]⟩]

/-- Three alternatives, one of which is set against all that came before it. -/
def alternatives : List (Entry Value) :=
  [⟨.or, .parse "d"⟩, ⟨.orAllPrior, .boolean .should (.parse "e") [.parse "f"]⟩, ⟨.or, .parse "g"⟩]

theorem strategies_agree_on_negated :
    (∀ kind p ps, negated.node.simplify = .boolean kind p ps → kind = .mustNot) ∧
      (∀ e ∈ conditions, e.op = .and) ∧ (∀ e ∈ alternatives, e.op = .or ∨ e.op = .orAllPrior) ∧
      ∃ root, normalize .leftToRight (negated :: (conditions ++ alternatives)) = some root ∧
        normalize .andPrecedence (negated :: (conditions ++ alternatives)) = some root := by
  have simplified : negated.node.simplify = .boolean .mustNot (.parse "a") [] := by
    cbv
  have start : ∀ kind p ps, negated.node.simplify = .boolean kind p ps → kind = .mustNot := by
    intro kind p ps same
    rw [simplified] at same
    cases same
    rfl
  have hands : ∀ e ∈ conditions, e.op = .and := by
    simp [conditions]
  have halternatives : ∀ e ∈ alternatives, e.op = .or ∨ e.op = .orAllPrior := by
    simp [alternatives]
  exact ⟨start, hands, halternatives, strategies_agree start hands halternatives⟩

/-- A conjunction in front is extended by one rule and kept as a group by the other. -/
example :
    normalize .leftToRight [⟨.and, .boolean .must (.parse "a") [.parse "b"]⟩, ⟨.and, .parse "c"⟩] =
        some (.boolean .must (.parse "a") [.parse "b", .parse "c"] : Predicate Value) ∧
      normalize .andPrecedence
          [⟨.and, .boolean .must (.parse "a") [.parse "b"]⟩, ⟨.and, .parse "c"⟩] =
        some (.boolean .must (.boolean .must (.parse "a") [.parse "b"]) [.parse "c"] :
          Predicate Value) := by
  constructor <;> cbv

end Entry

end SearchSql
