import Mathlib.Data.List.Nodup
import SearchSql.Proofs.Schema.Naming

/-!
# Registered indexes

A registry that is built up by registering has one index for a relation at most, so the index that
it finds for a relation is the only one (`Constructed.eq_of_get?`).
-/

namespace SearchSql

namespace Registry

variable {registry : Registry} {relation : String} {index : SearchIndex}

theorem get?_eq_some (h : registry.get? relation = some index) :
    index ∈ registry.indexes ∧ index.relation = relation :=
  ⟨List.mem_of_find?_eq_some h, by simpa using List.find?_some h⟩

theorem contains_iff : registry.contains relation = true ↔
    relation ∈ registry.indexes.map (·.relation) := by
  rw [contains, get?, List.find?_isSome, List.mem_map]
  simp

theorem add_eq_ok_iff {registry' : Registry} :
    registry.add index = .ok registry' ↔
      index.relation ∉ registry.indexes.map (·.relation) ∧
        registry'.indexes = registry.indexes ++ [index] := by
  rw [add, Except.ite_error_eq_ok, contains_iff, Except.ok.injEq]
  refine and_congr_right fun _ => ⟨?_, ?_⟩
  · rintro rfl
    rfl
  · intro same
    rw [← same]

theorem Constructed.nodup_relations (h : registry.Constructed) :
    (registry.indexes.map (·.relation)).Nodup := by
  induction h with
  | empty => exact List.nodup_nil
  | @add registry registry' index _ _ _ _ _ _ added ih =>
    obtain ⟨fresh, grown⟩ := add_eq_ok_iff.mp added
    rw [grown, List.map_append, List.map_singleton, ← List.concat_eq_append]
    exact ih.concat fresh

theorem Constructed.eq_of_get? (h : registry.Constructed)
    (found : registry.get? relation = some index) {other : SearchIndex}
    (registered : other ∈ registry.indexes) (same : other.relation = relation) :
    other = index := by
  obtain ⟨hindex, hrelation⟩ := get?_eq_some found
  exact List.inj_on_of_nodup_map h.nodup_relations registered hindex (same.trans hrelation.symm)

end Registry

end SearchSql
