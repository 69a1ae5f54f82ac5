import Mathlib.Data.List.Basic
import Mathlib.Order.Lattice
import Mathlib.Data.List.Lex
import SearchSql.Proofs.Predicate.Leaves

/-!
# Tree order

The place of a node is the way to it from the root, child by child, and places are compared as
words in a dictionary: a node comes before its children, and whatever is under one child comes
before whatever is under a later one. The list of nodes is in this order, so what is found first in
the list stands at the first of all places where it could be found (`exists_firstAt`).
-/

namespace SearchSql

namespace Predicate

variable {α β : Type}

/-- The node at a place. -/
def at? : Predicate α → List Nat → Option (Predicate α)
  | p, [] => some p
  | p, i :: place => p.children[i]?.bind (·.at? place)

/-- The first place at which a node has something of a kind. -/
structure FirstAt (f : Predicate α → Option β) (p : Predicate α) (place : List Nat) (b : β) :
    Prop where
  there : (p.at? place).bind f = some b
  before : ∀ place' < place, (p.at? place').bind f = none

variable {f : Predicate α → Option β} {p : Predicate α}

@[simp] theorem at?_nil (p : Predicate α) : p.at? [] = some p := rfl

theorem at?_cons (p : Predicate α) (i : Nat) (place : List Nat) :
    p.at? (i :: place) = p.children[i]?.bind (·.at? place) := rfl

theorem occurs_iff_at? {q : Predicate α} : q.Occurs p ↔ ∃ place, p.at? place = some q := by
  constructor
  · intro h
    induction h with
    | here => exact ⟨[], rfl⟩
    | inside child _ ih =>
      obtain ⟨place, hq⟩ := ih
      obtain ⟨i, hi⟩ := List.mem_iff_getElem?.mp child
      refine ⟨i :: place, ?_⟩
      rw [at?_cons, hi]
      exact hq
  · rintro ⟨place, h⟩
    induction place generalizing p with
    | nil =>
      cases h
      exact .here
    | cons i place ih =>
      rw [at?_cons, Option.bind_eq_some_iff] at h
      obtain ⟨c, hc, h⟩ := h
      exact .inside (List.mem_of_getElem? hc) (ih h)

theorem findSome?_nodes (f : Predicate α → Option β) (p : Predicate α) :
    p.nodes.findSome? f = (f p).or (p.children.findSome? fun c => c.nodes.findSome? f) := by
  have each : (p.children.flatMap nodes).findSome? f =
      p.children.findSome? fun c => c.nodes.findSome? f := by
    simp only [← List.head?_filterMap, List.filterMap_flatMap, List.head?_flatMap]
  rw [nodes_eq_cons, List.findSome?_cons, each]
  cases f p <;> rfl

/-- Nothing is found exactly if there is nothing at any place. -/
theorem findSome?_nodes_eq_none :
    p.nodes.findSome? f = none ↔ ∀ place, (p.at? place).bind f = none := by
  rw [List.findSome?_eq_none_iff]
  constructor
  · intro none place
    cases h : p.at? place with
    | none => rfl
    | some q => exact none q (mem_nodes_iff.mpr (occurs_iff_at?.mpr ⟨place, h⟩))
  · intro none q hq
    obtain ⟨place, h⟩ := occurs_iff_at?.mp (mem_nodes_iff.mp hq)
    simpa [h] using none place

theorem exists_findSome?_of_occurs {q : Predicate α} {b : β} (hq : q.Occurs p) (h : f q = some b) :
    ∃ b', p.nodes.findSome? f = some b' := by
  rw [← Option.isSome_iff_exists, List.findSome?_isSome_iff]
  exact ⟨q, mem_nodes_iff.mpr hq, by rw [h]; rfl⟩

theorem exists_firstAt {b : β} (h : p.nodes.findSome? f = some b) :
    ∃ place, FirstAt f p place b := by
  induction p using children_induction with
  | node p ih =>
    rw [findSome?_nodes] at h
    cases here : f p with
    | some b' =>
      rw [here, Option.some_or] at h
      cases h
      exact ⟨[], here, fun place' less => absurd less (List.not_lt_nil place')⟩
    | none =>
      rw [here, Option.none_or] at h
      obtain ⟨earlier, c, later, split, found, clean⟩ := List.findSome?_eq_some_iff.mp h
      have child : p.children[earlier.length]? = some c := by simp [split]
      obtain ⟨place, first⟩ := ih c (List.mem_of_getElem? child) found
      refine ⟨earlier.length :: place, ?_, ?_⟩
      · rw [at?_cons, child]
        exact first.there
      · rintro (_ | ⟨i, place'⟩) less
        · exact here
        rw [at?_cons]
        rcases List.cons_lt_cons_iff.mp less with sooner | ⟨rfl, under⟩
        · -- Another child, in front of the one where it is found.
          have other : p.children[i]? = some earlier[i] := by
            rw [split, List.getElem?_append_left sooner, List.getElem?_eq_getElem sooner]
          rw [other]
          exact findSome?_nodes_eq_none.mp (clean _ (List.getElem_mem sooner)) place'
        · rw [child]
          exact first.before place' under

theorem FirstAt.unique {place place' : List Nat} {b b' : β} (h : FirstAt f p place b)
    (h' : FirstAt f p place' b') : place = place' ∧ b = b' := by
  rcases lt_trichotomy place place' with less | same | more
  · cases h.there.symm.trans (h'.before place less)
  · subst same
    exact ⟨rfl, Option.some.inj (h.there.symm.trans h'.there)⟩
  · cases h'.there.symm.trans (h.before place' more)

end Predicate

end SearchSql
