import Mathlib.Data.List.Forall2
import Mathlib.Data.List.Nodup
import SearchSql.Proofs.Success
import SearchSql.Schema.Registry

/-!
# Building an index

An index is built exactly if its relation and its own name pass the check, its fields pass it too,
are distinct and at least one, and the key is one of them (`build_eq_ok_iff`).
-/

namespace SearchSql.SearchIndex

variable {relation : String} {fields : Value} {name keyField : Option String} {index : SearchIndex}

/-- The name of the index of a relation: the one it is given, unless it is none or empty. -/
def givenName (relation : String) (name : Option String) : String :=
  match name with
  | some n => if n.isEmpty then defaultName relation else n
  | none => defaultName relation

theorem declaredName_eq_ok_iff {v : Value} {f : String} :
    declaredName v = .ok f ↔ declaredName? v = some f ∧ Name.check f = .ok () := by
  unfold declaredName
  cases declaredName? v with
  | none => exact ⟨nofun, nofun⟩
  | some g =>
    simp only [Except.map_eq_ok, Except.mapError_eq_ok, Option.some.injEq]
    constructor
    · rintro ⟨_, checked, rfl⟩
      exact ⟨rfl, checked⟩
    · rintro ⟨rfl, checked⟩
      exact ⟨(), checked, rfl⟩

theorem checkFields_cons_eq_ok {index : String} {seen fieldNames : List String} {v : Value}
    {items : List Value} :
    checkFields index seen (v :: items) = .ok fieldNames ↔
      ∃ f, declaredName? v = some f ∧ Name.check f = .ok () ∧ f ∉ seen ∧
        checkFields index (seen ++ [f]) items = .ok fieldNames := by
  rw [checkFields, Except.bind_eq_ok]
  refine exists_congr fun f => ?_
  rw [declaredName_eq_ok_iff, and_assoc, ← List.contains_iff_mem]
  refine and_congr_right fun _ => and_congr_right fun _ => ?_
  by_cases twice : seen.contains f = true
  · rw [if_pos twice]
    exact iff_of_false nofun fun h => h.1 twice
  · rw [if_neg twice]
    exact (and_iff_right twice).symm

/-- The fields of an index: those that are declared, in this order. -/
theorem checkFields_eq_ok_iff {index : String} {seen fieldNames : List String}
    {items : List Value} (hseen : seen.Nodup) :
    checkFields index seen items = .ok fieldNames ↔
      ∃ names, List.Forall₂ (fun v f => declaredName? v = some f) items names ∧
        (∀ f ∈ names, Name.check f = .ok ()) ∧ fieldNames = seen ++ names ∧
        fieldNames.Nodup := by
  induction items generalizing seen with
  | nil =>
    simp only [List.forall₂_nil_left_iff, exists_eq_left, List.append_nil, checkFields,
      Except.ok.injEq]
    constructor
    · rintro rfl
      exact ⟨List.forall_mem_nil _, rfl, hseen⟩
    · rintro ⟨-, rfl, -⟩
      rfl
  | cons v items ih =>
    rw [checkFields_cons_eq_ok]
    constructor
    · rintro ⟨f, declared, checked, fresh, h⟩
      have grown : (seen ++ [f]).Nodup := by
        rw [← List.concat_eq_append]
        exact hseen.concat fresh
      obtain ⟨names, hnames, others, all, distinct⟩ := (ih grown).mp h
      rw [← List.append_cons] at all
      exact ⟨f :: names, hnames.cons declared, List.forall_mem_cons.mpr ⟨checked, others⟩, all,
        distinct⟩
    · rintro ⟨names, hnames, checked, all, distinct⟩
      cases hnames with
      | @cons _ f _ names declared hnames =>
        obtain ⟨first, others⟩ := List.forall_mem_cons.mp checked
        rw [List.append_cons] at all
        have grown : (seen ++ [f]).Nodup := (all ▸ distinct).of_append_left
        have fresh : f ∉ seen := by
          intro known
          exact List.disjoint_of_nodup_append grown known (List.mem_singleton_self f)
        exact ⟨f, declared, first, fresh, (ih grown).mpr ⟨names, hnames, others, all, distinct⟩⟩

theorem requireItems_eq_ok_iff {v : Value} {items : List Value} :
    v.requireItems = .ok items ↔ v.items? = some items := by
  unfold Value.requireItems
  cases v.items? <;> simp

/-- What is checked last: that there are fields and that the key is one of them. -/
theorem finish_eq_ok_iff {names : List String} {indexName : String} {built : SearchIndex} :
    (do
      if names.isEmpty then throw (SchemaError.noFields indexName)
      match keyField with
      | some key => if ! names.contains key then throw (SchemaError.unknownKey key indexName)
      | none => pure ()
      return built : Except SchemaError SearchIndex) = .ok index ↔
      names ≠ [] ∧ (∀ key ∈ keyField, key ∈ names) ∧ index = built := by
  by_cases empty : names.isEmpty = true
  · rw [if_pos empty]
    exact iff_of_false nofun fun h => h.1 (List.isEmpty_iff.mp empty)
  have filled : names ≠ [] := mt List.isEmpty_iff.mpr empty
  rw [if_neg empty, and_iff_right filled]
  cases keyField with
  | none => simp [pure, Except.pure, eq_comm]
  | some key =>
    by_cases known : key ∈ names
    · simp [known, pure, Except.pure, eq_comm]
    · simp [known, throw, throwThe, MonadExceptOf.throw, bind, Except.bind]

/-- An index is built if and only if all of its names pass the check, its fields are distinct and
at least one, and the key is one of them. Then it is made of what was given. -/
theorem build_eq_ok_iff :
    build relation fields name keyField = .ok index ↔
      Name.checkRelation relation = .ok () ∧
      Name.checkRelation (givenName relation name) = .ok () ∧
      ∃ items names, fields.items? = some items ∧
        List.Forall₂ (fun v f => declaredName? v = some f) items names ∧
        (∀ f ∈ names, Name.check f = .ok ()) ∧ names.Nodup ∧ names ≠ [] ∧
        (∀ key ∈ keyField, key ∈ names) ∧
        index = ⟨relation, givenName relation name, names, keyField⟩ := by
  constructor
  · intro h
    obtain ⟨_, hrelation, h⟩ := Except.bind_eq_ok.mp h
    obtain ⟨_, hname, h⟩ := Except.bind_eq_ok.mp h
    obtain ⟨items, hitems, h⟩ := Except.bind_eq_ok.mp h
    obtain ⟨names, hfields, h⟩ := Except.bind_eq_ok.mp h
    obtain ⟨_, declared, checked, rfl, distinct⟩ := (checkFields_eq_ok_iff List.nodup_nil).mp hfields
    exact ⟨Except.mapError_eq_ok.mp hrelation, Except.mapError_eq_ok.mp hname, items, _,
      requireItems_eq_ok_iff.mp (Except.mapError_eq_ok.mp hitems), declared, checked, distinct,
      finish_eq_ok_iff.mp h⟩
  · rintro ⟨hrelation, hname, items, names, hitems, declared, checked, distinct, last⟩
    have hfields : checkFields (givenName relation name) [] items = .ok names :=
      (checkFields_eq_ok_iff List.nodup_nil).mpr ⟨names, declared, checked, rfl, distinct⟩
    refine Except.bind_eq_ok.mpr ⟨(), Except.mapError_eq_ok.mpr hrelation, ?_⟩
    refine Except.bind_eq_ok.mpr ⟨(), Except.mapError_eq_ok.mpr hname, ?_⟩
    refine Except.bind_eq_ok.mpr
      ⟨items, Except.mapError_eq_ok.mpr (requireItems_eq_ok_iff.mpr hitems), ?_⟩
    exact Except.bind_eq_ok.mpr ⟨names, hfields, finish_eq_ok_iff.mpr last⟩

/-- The same for fields that are declared by their names. -/
theorem build_names_eq_ok_iff {names : List String} :
    build relation (.list (names.map .text)) name keyField = .ok index ↔
      Name.checkRelation relation = .ok () ∧
      Name.checkRelation (givenName relation name) = .ok () ∧
      (∀ f ∈ names, Name.check f = .ok ()) ∧ names.Nodup ∧ names ≠ [] ∧
      (∀ key ∈ keyField, key ∈ names) ∧
      index = ⟨relation, givenName relation name, names, keyField⟩ := by
  have declared (names' : List String) :
      List.Forall₂ (fun v f => declaredName? v = some f) (names.map Value.text) names' ↔
        names = names' := by
    rw [List.forall₂_map_left_iff]
    simp [declaredName?, List.forall₂_eq_eq_eq]
  rw [build_eq_ok_iff]
  refine and_congr_right fun _ => and_congr_right fun _ => ?_
  constructor
  · rintro ⟨_, names', ⟨⟩, same, rest⟩
    cases (declared names').mp same
    exact rest
  · intro rest
    exact ⟨_, names, rfl, (declared names).mpr rfl, rest⟩

theorem givenName_givenName : givenName relation (some (givenName relation name)) =
    givenName relation name := by
  rcases name with _ | name
  · by_cases empty : (defaultName relation).isEmpty = true
    · simp [givenName, empty]
    · simp [givenName, empty]
  · by_cases empty : name.isEmpty = true
    · by_cases empty' : (defaultName relation).isEmpty = true
      · simp [givenName, empty, empty']
      · simp [givenName, empty, empty']
    · simp [givenName, empty]

/-- The index can be built once more from what it is made of. -/
def IsRebuilt (index : SearchIndex) : Prop :=
  build index.relation (.list (index.fieldNames.map .text)) (some index.name) index.keyField =
    .ok index

theorem isRebuilt_of_build (h : build relation fields name keyField = .ok index) :
    index.IsRebuilt := by
  obtain ⟨hrelation, hname, items, names, -, -, checked, distinct, given, known, rfl⟩ :=
    build_eq_ok_iff.mp h
  refine build_names_eq_ok_iff.mpr ⟨hrelation, ?_, checked, distinct, given, known, ?_⟩
  · rw [givenName_givenName]
    exact hname
  · rw [givenName_givenName]

end SearchSql.SearchIndex
