import SearchSql.Proofs.Predicate.TreeOrder
import SearchSql.Proofs.Search.Invariant

/-!
# Validation of predicates

A predicate is checked against the index it is bound to: all of its fields first, in tree order,
then all of its literals. So the error is about the first field that is not declared, wherever
literals without encoding may stand, and about the first of these only if all fields are declared
(`validation_reports_first_fault`).
-/

namespace SearchSql

namespace Predicate

/-- Why what a node compares with is no literal. -/
def literalFault? (q : Predicate Value) : Option LiteralError :=
  q.literal?.bind fun v => Except.error? v.encode

theorem literalFault?_eq_some {q : Predicate Value} {e : LiteralError} :
    q.literalFault? = some e ↔ ∃ v, q.literal? = some v ∧ v.encode = .error e := by
  simp [literalFault?, Option.bind_eq_some_iff]

theorem checkLiterals_eq_error {p : Predicate Value} {e : LiteralError} :
    p.checkLiterals = .error e ↔ p.nodes.findSome? literalFault? = some e := by
  have fault (v : Value) : Except.error? (v.encode.map fun _ => ()) = Except.error? v.encode := by
    cases v.encode <;> rfl
  rw [checkLiterals, Except.forM_eq_error, ← List.head?_filterMap, literals,
    List.filterMap_filterMap, List.head?_filterMap]
  simp only [fault]
  rfl

end Predicate

namespace Binding

/-- The field of a node, if it is not declared. -/
def undeclared? (binding : Binding) (q : Predicate Value) : Option String :=
  q.field?.filter (· ∉ binding.index.fieldNames)

theorem undeclared?_eq_some {binding : Binding} {q : Predicate Value} {f : String} :
    binding.undeclared? q = some f ↔ q.field? = some f ∧ f ∉ binding.index.fieldNames := by
  simp [undeclared?, Option.filter_eq_some_iff]

/-- The fields of a predicate are checked in tree order. -/
theorem checkFields_eq_error {binding : Binding} {p : Predicate Value} {e : ValidationError} :
    (p.fields.forM fun f => (binding.resolve f).mapError ValidationError.binding |>.map fun _ => ()) =
        .error e ↔
      ∃ f, p.nodes.findSome? binding.undeclared? = some f ∧
        e = .binding (.unknownField f binding) := by
  have fault (q : Predicate Value) :
      (q.field?.bind fun f => Except.error?
        (((binding.resolve f).mapError ValidationError.binding).map fun _ => ())) =
      (binding.undeclared? q).map fun f => .binding (.unknownField f binding) := by
    unfold undeclared?
    cases q.field? with
    | none => rfl
    | some f =>
      rw [Option.bind_some, resolve, SearchIndex.findField?, Option.filter_some]
      by_cases hf : f ∈ binding.index.fieldNames
      · simp [hf, Except.mapError, Except.map, Except.error?]
      · simp [hf, Except.mapError, Except.map, Except.error?]
  rw [Except.forM_eq_error, ← List.head?_filterMap, Predicate.fields, List.filterMap_filterMap,
    List.head?_filterMap, funext fault, ← Function.comp_def, ← List.map_findSome?,
    Option.map_eq_some_iff]
  exact exists_congr fun f => and_congr_right fun _ => eq_comm

variable {binding : Binding} {p : Predicate Value}

theorem validate_of_undeclared {f : String}
    (h : p.nodes.findSome? binding.undeclared? = some f) :
    binding.validate p = .error (.binding (.unknownField f binding)) := by
  rw [validate, checkFields_eq_error.mpr ⟨f, h, rfl⟩]
  rfl

theorem validate_of_declared (h : ∀ f ∈ p.fields, f ∈ binding.index.fieldNames) :
    binding.validate p = p.checkLiterals.mapError .literal := by
  have checked := Except.forM_eq_ok.mpr fun f hf => resolve_eq_ok.mpr (h f hf)
  rw [validate, checked]
  rfl

end Binding

namespace Bindings

/-- An alias that is bound stands for its binding. -/
theorem validate_of_get {bindings : Bindings} {aliasName : String} {binding : Binding}
    (h : bindings.get aliasName = .ok binding) (p : Predicate Value) :
    bindings.validate aliasName p = binding.validate p := by
  have resolved (f : String) : bindings.resolve aliasName f = binding.resolve f := by
    rw [resolve, h]
    rfl
  simp only [validate, Binding.validate, resolved]

end Bindings

namespace Binding

/-- A predicate is valid if and only if every field that stands in it, at any depth, is declared on
the index and everything it compares with is a literal. If some field is not declared, the error is
about the first such field in tree order, even where a value that is no literal stands before it.
If all fields are declared, it is the fault of the first value that is no literal. -/
theorem validation_reports_first_fault (binding : Binding) (p : Predicate Value) :
    (binding.validate p = .ok () ↔ ∀ q : Predicate Value, q.Occurs p →
      (∀ f, q.field? = some f → f ∈ binding.index.fieldNames) ∧
      (∀ v, q.literal? = some v → ∃ l, v.encode = .ok l)) ∧
    (∀ (q : Predicate Value) f, q.Occurs p → q.field? = some f →
      f ∉ binding.index.fieldNames →
      ∃ place first, Predicate.FirstAt binding.undeclared? p place first ∧
        binding.validate p = .error (.binding (.unknownField first binding))) ∧
    ((∀ (q : Predicate Value) f, q.Occurs p → q.field? = some f →
      f ∈ binding.index.fieldNames) →
      ∀ (q : Predicate Value) v e, q.Occurs p → q.literal? = some v → v.encode = .error e →
      ∃ place first, Predicate.FirstAt Predicate.literalFault? p place first ∧
        binding.validate p = .error (.literal first)) ∧
    (∀ f, (ValidationError.binding (.unknownField f binding)).report =
      .make .unknownField "field not found in search index"
        (s!"field '{f}' not found in index '{binding.index.name}' " ++
          s!"for relation '{binding.relation}' (alias '{binding.aliasName}')")) ∧
    (∀ (bindings : Bindings) aliasName, bindings.get aliasName = .ok binding →
      bindings.validate aliasName p = binding.validate p) := by
  refine ⟨?_, ?_, ?_, fun f => rfl, fun bindings aliasName h => Bindings.validate_of_get h p⟩
  · rw [validate_eq_ok, Predicate.forall_mem_fields_iff, Predicate.forall_mem_literals_iff]
    constructor
    · rintro ⟨declared, literals⟩ q hq
      exact ⟨fun f => declared q f hq, fun v => literals q v hq⟩
    · intro fits
      exact ⟨fun q f hq => (fits q hq).1 f, fun q v hq => (fits q hq).2 v⟩
  · intro q f hq hf undeclared
    obtain ⟨first, found⟩ := Predicate.exists_findSome?_of_occurs hq
      (undeclared?_eq_some.mpr ⟨hf, undeclared⟩)
    obtain ⟨place, hplace⟩ := Predicate.exists_firstAt found
    exact ⟨place, first, hplace, validate_of_undeclared found⟩
  · intro declared q v e hq hv he
    obtain ⟨first, found⟩ := Predicate.exists_findSome?_of_occurs hq
      (Predicate.literalFault?_eq_some.mpr ⟨v, hv, he⟩)
    obtain ⟨place, hplace⟩ := Predicate.exists_firstAt found
    refine ⟨place, first, hplace, ?_⟩
    rw [validate_of_declared (Predicate.forall_mem_fields_iff.mpr declared), Predicate.checkLiterals_eq_error.mpr found]
    rfl

/-- A phrase with a null byte, then two fields that are not declared, the first of them further
down than the second. -/
def mistakenPredicate : Predicate Value :=
  let least : Finite64 := ⟨false, 1, by decide⟩
  .boolean .should (.phrase "body" [.text "a\x00"] none)
    [.boolean .mustNot (.boost (.term "title" (.int 1)) ⟨.real least, least, rfl⟩) [],
      .present "author"]

def notesBinding : Binding := ⟨"n", "notes", ⟨"notes", "notes_search_idx", ["body"], none⟩⟩

theorem first_fault_of_mistakenPredicate :
    (∃ e, Value.encode (.tuple [.text "a\x00"]) = .error e) ∧
    (∃ place first, Predicate.FirstAt notesBinding.undeclared? mistakenPredicate place first ∧
      notesBinding.validate mistakenPredicate =
        .error (.binding (.unknownField first notesBinding))) ∧
    notesBinding.validate mistakenPredicate =
      .error (.binding (.unknownField "title" notesBinding)) := by
  have last : Predicate.Occurs (.present "author") mistakenPredicate :=
    .inside (List.mem_cons_of_mem _ (List.mem_cons_of_mem _ List.mem_cons_self)) .here
  refine ⟨⟨_, rfl⟩, ?_, ?_⟩
  · exact (validation_reports_first_fault notesBinding mistakenPredicate).2.1 _ "author" last rfl
      (by decide)
  · apply validate_of_undeclared
    rw [Predicate.nodes_eq_preorder]
    decide

end Binding

end SearchSql
