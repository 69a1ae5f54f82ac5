import SearchSql.Proofs.Predicate.TreeOrder

/-!
# Places

All places in a predicate, listed in their order: the root first, then what is under each child from
left to right. No place is listed twice (`pairwise_places`), none is left out (`mem_places_iff`), and
what stands there are the nodes in tree order (`map_at?_places`), so each node is listed as often as
it stands in the tree.
-/

namespace SearchSql

namespace Predicate

variable {α : Type}

mutual

/-- The places of all nodes, in tree order. -/
def places : Predicate α → List (List ℕ)
  | .boolean _ first rest => [] :: ((places first).map (0 :: ·) ++ placesFrom 1 rest)
  | .boost query _ => [] :: (places query).map (0 :: ·)
  | _ => [[]]

/-- The places under children that are numbered from `i` on. -/
def placesFrom : ℕ → List (Predicate α) → List (List ℕ)
  | _, [] => []
  | i, p :: ps => (places p).map (i :: ·) ++ placesFrom (i + 1) ps

end

theorem places_eq (p : Predicate α) : p.places = [] :: placesFrom 0 p.children := by
  cases p <;> simp [places, placesFrom, children]

theorem mem_placesFrom {ps : List (Predicate α)} {i : ℕ} {place : List ℕ} :
    place ∈ placesFrom i ps ↔
      ∃ j q under, ps[j]? = some q ∧ under ∈ q.places ∧ place = (i + j) :: under := by
  induction ps generalizing i with
  | nil => simp [placesFrom]
  | cons p ps ih =>
    rw [placesFrom, List.mem_append, List.mem_map, ih]
    constructor
    · rintro (⟨under, inside, rfl⟩ | ⟨j, q, under, child, inside, rfl⟩)
      · exact ⟨0, p, under, rfl, inside, rfl⟩
      · exact ⟨j + 1, q, under, child, inside, by rw [Nat.add_right_comm, Nat.add_assoc]⟩
    · rintro ⟨_ | j, q, under, child, inside, rfl⟩
      · exact .inl ⟨under, Option.some.inj child ▸ inside, rfl⟩
      · exact .inr ⟨j, q, under, child, inside, by rw [Nat.add_right_comm, Nat.add_assoc]⟩

theorem mem_places_iff {p : Predicate α} {place : List ℕ} :
    place ∈ p.places ↔ ∃ q, p.at? place = some q := by
  induction p using children_induction generalizing place with
  | node p ih =>
    rw [places_eq, List.mem_cons, mem_placesFrom]
    cases place with
    | nil => simp
    | cons i under =>
      constructor
      · rintro (root | ⟨j, c, under, child, inside, same⟩)
        · cases root
        · obtain ⟨rfl, rfl⟩ := List.cons.inj (same.trans (by rw [Nat.zero_add]))
          obtain ⟨q, hq⟩ := (ih c (List.mem_of_getElem? child)).mp inside
          exact ⟨q, by rw [at?_cons, child, Option.bind_some, hq]⟩
      · rintro ⟨q, hq⟩
        rw [at?_cons, Option.bind_eq_some_iff] at hq
        obtain ⟨c, child, hq⟩ := hq
        have inside := (ih c (List.mem_of_getElem? child)).mpr ⟨q, hq⟩
        exact .inr ⟨i, c, under, child, inside, by rw [Nat.zero_add]⟩

theorem pairwise_placesFrom {ps : List (Predicate α)}
    (h : ∀ p ∈ ps, p.places.Pairwise (· < ·)) (i : ℕ) :
    (placesFrom i ps).Pairwise (· < ·) := by
  induction ps generalizing i with
  | nil => exact .nil
  | cons p ps ih =>
    obtain ⟨hp, hps⟩ := List.forall_mem_cons.mp h
    rw [placesFrom, List.pairwise_append]
    refine ⟨?_, ih hps (i + 1), ?_⟩
    · rw [List.pairwise_map]
      exact hp.imp fun less => List.cons_lt_cons_iff.mpr (.inr ⟨rfl, less⟩)
    · -- Whatever is under this child comes before whatever is under a later one.
      intro place hplace later hlater
      obtain ⟨under, -, rfl⟩ := List.mem_map.mp hplace
      obtain ⟨j, q, under', -, -, rfl⟩ := mem_placesFrom.mp hlater
      exact List.cons_lt_cons_iff.mpr (.inl (by omega))

/-- The places are listed in their order, each of them once. -/
theorem pairwise_places (p : Predicate α) : p.places.Pairwise (· < ·) := by
  induction p using children_induction with
  | node p ih =>
    rw [places_eq, List.pairwise_cons]
    refine ⟨?_, pairwise_placesFrom ih 0⟩
    intro place hplace
    obtain ⟨j, q, under, -, -, rfl⟩ := mem_placesFrom.mp hplace
    exact List.nil_lt_cons _ _

theorem map_at?_placesFrom {p : Predicate α} {ps : List (Predicate α)}
    (h : ∀ q ∈ ps, q.places.map q.at? = (preorder q).map some) {i : ℕ}
    (rest : p.children.drop i = ps) :
    (placesFrom i ps).map p.at? = (preorderAll ps).map some := by
  induction ps generalizing i with
  | nil => rfl
  | cons q ps ih =>
    obtain ⟨hq, hps⟩ := List.forall_mem_cons.mp h
    have child : p.children[i]? = some q := by
      rw [← List.head?_drop, rest, List.head?_cons]
    have next : p.children.drop (i + 1) = ps := by
      rw [← List.tail_drop, rest, List.tail_cons]
    have under : (q.places.map (i :: ·)).map p.at? = q.places.map q.at? := by
      rw [List.map_map]
      refine List.map_congr_left fun place _ => ?_
      rw [Function.comp_apply, at?_cons, child, Option.bind_some]
    rw [placesFrom, preorderAll, List.map_append, List.map_append, under, hq, ih hps next]

/-- At the places, one after the other, stand the nodes in tree order. -/
theorem map_at?_places (p : Predicate α) : p.places.map p.at? = (preorder p).map some := by
  induction p using children_induction with
  | node p ih =>
    rw [places_eq, preorder_eq, List.map_cons, List.map_cons, at?_nil,
      map_at?_placesFrom ih (List.drop_zero)]

end Predicate

end SearchSql
