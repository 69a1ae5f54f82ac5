import SearchSql.Proofs.Schema.Registration
import SearchSql.Schema.Run

/-!
# Runs of registrations

A registration makes all its checks before it puts the index down, so one that fails changes nothing
(`apply_eq`). An index is put down only for a relation that has none, so what is registered stays,
and a registry is the row of the indexes that were registered, each under its own relation
(`registrations_extend_registry`).
-/

namespace SearchSql

/-! ## Declarations -/

namespace Registration

variable {r : Registration} {index : SearchIndex}

/-- The name of the index: the one that is given, or else the one by default. -/
def name (r : Registration) : String := SearchIndex.givenName r.relation r.indexName

/-- A registration declares these fields, in this order, and all of it is valid. -/
structure Declares (r : Registration) (fieldNames : List String) : Prop where
  relation : Name.checkRelation r.relation = .ok ()
  name : Name.checkRelation r.name = .ok ()
  declared : ∃ items, r.fields.items? = some items ∧
    List.Forall₂ (fun v f => SearchIndex.declaredName? v = some f) items fieldNames
  checked : ∀ f ∈ fieldNames, Name.check f = .ok ()
  distinct : fieldNames.Nodup
  filled : fieldNames ≠ []
  key : ∀ key ∈ r.keyField, key ∈ fieldNames

theorem build_eq_ok_iff : r.build = .ok index ↔
    ∃ fieldNames, r.Declares fieldNames ∧ index = ⟨r.relation, r.name, fieldNames, r.keyField⟩ := by
  rw [build, SearchIndex.build_eq_ok_iff]
  constructor
  · rintro ⟨relation, name, items, names, hitems, declared, checked, distinct, filled, key, same⟩
    exact ⟨names, ⟨relation, name, ⟨items, hitems, declared⟩, checked, distinct, filled, key⟩, same⟩
  · rintro ⟨names, h, same⟩
    obtain ⟨items, hitems, declared⟩ := h.declared
    exact ⟨h.relation, h.name, items, names, hitems, declared, h.checked, h.distinct, h.filled,
      h.key, same⟩

theorem relation_of_build (h : r.build = .ok index) : index.relation = r.relation := by
  obtain ⟨names, -, rfl⟩ := build_eq_ok_iff.mp h
  rfl

theorem relations_of_build {given : List Registration} {indexes : List SearchIndex}
    (h : List.Forall₂ (fun r index => r.build = .ok index) given indexes) :
    indexes.map (·.relation) = given.map (·.relation) := by
  induction h with
  | nil => rfl
  | cons built _ ih => rw [List.map_cons, List.map_cons, ih, relation_of_build built]

theorem mapM_build_eq_ok_iff {given : List Registration} {indexes : List SearchIndex} :
    given.mapM build = .ok indexes ↔
      List.Forall₂ (fun r index => r.build = .ok index) given indexes := by
  induction given generalizing indexes with
  | nil =>
    rw [List.mapM_nil, List.forall₂_nil_left_iff]
    constructor
    · rintro ⟨⟩
      rfl
    · rintro rfl
      rfl
  | cons r given ih =>
    rw [List.mapM_cons, Except.bind_eq_ok]
    constructor
    · rintro ⟨index, built, h⟩
      obtain ⟨others, hothers, same⟩ := Except.bind_eq_ok.mp h
      cases same
      exact .cons built (ih.mp hothers)
    · intro h
      cases h with
      | cons built others =>
        exact ⟨_, built, Except.bind_eq_ok.mpr ⟨_, ih.mpr others, rfl⟩⟩

end Registration

/-- The fields of an index are at least one, distinct and of that index, and it answers for their
names alone. -/
structure SearchIndex.IsSound (index : SearchIndex) : Prop where
  filled : index.fields ≠ []
  distinct : (index.fields.map (·.name)).Nodup
  owner : ∀ field ∈ index.fields, field.indexName = index.name
  found : ∀ name field, index.findField? name = some field ↔
    field ∈ index.fields ∧ field.name = name
  contains : ∀ name, index.contains name = true ↔ ∃ field ∈ index.fields, field.name = name
  key : ∀ key ∈ index.keyField, index.contains key = true

theorem SearchIndex.names_fields (index : SearchIndex) :
    index.fields.map (·.name) = index.fieldNames := by
  rw [fields, List.map_map]
  exact List.map_id _

theorem SearchIndex.mem_fields {index : SearchIndex} {field : SearchField} :
    field ∈ index.fields ↔ field.name ∈ index.fieldNames ∧ field.indexName = index.name := by
  rw [fields, List.mem_map]
  constructor
  · rintro ⟨f, hf, rfl⟩
    exact ⟨hf, rfl⟩
  · rintro ⟨known, owner⟩
    exact ⟨field.name, known, by rw [← owner]⟩

theorem Registration.isSound_of_build {r : Registration} {index : SearchIndex}
    (h : r.build = .ok index) : index.IsSound := by
  obtain ⟨names, declares, rfl⟩ := build_eq_ok_iff.mp h
  have known (f : String) :
      (SearchIndex.mk r.relation r.name names r.keyField).contains f = true ↔ f ∈ names :=
    List.contains_iff_mem
  constructor
  · exact mt List.map_eq_nil_iff.mp declares.filled
  · rw [SearchIndex.names_fields]
    exact declares.distinct
  · exact fun field hfield => (SearchIndex.mem_fields.mp hfield).2
  · intro name field
    rw [SearchIndex.mem_fields, SearchIndex.findField?, ← SearchIndex.contains]
    by_cases declared : name ∈ names
    · rw [if_pos ((known name).mpr declared), Option.some.injEq]
      constructor
      · rintro rfl
        exact ⟨⟨declared, rfl⟩, rfl⟩
      · rintro ⟨⟨-, owner⟩, rfl⟩
        rw [← owner]
    · rw [if_neg (mt (known name).mp declared)]
      exact iff_of_false nofun fun h => declared (h.2 ▸ h.1.1)
  · intro name
    rw [known]
    constructor
    · exact fun hname => ⟨⟨name, r.name⟩, SearchIndex.mem_fields.mpr ⟨hname, rfl⟩, rfl⟩
    · rintro ⟨field, hfield, rfl⟩
      exact (SearchIndex.mem_fields.mp hfield).1
  · exact fun key hkey => (known key).mpr (declares.key key hkey)

namespace Registry

variable {registry registry' : Registry} {index : SearchIndex} {r : Registration}

/-! ## One registration -/

theorem put_of_fresh (fresh : registry.contains index.relation = false) :
    registry.put index = ⟨registry.indexes ++ [index]⟩ := by
  rw [put, if_neg (by simp [fresh])]

theorem on_add (registry : Registry) (index : SearchIndex) :
    (Action.add index).on registry =
      if registry.contains index.relation then
        (registry, .error (.alreadyRegistered index.relation))
      else (registry.put index, .ok ()) := by
  have checked : (Action.add index).on registry = Action.on (do
      if registry.contains index.relation then throw (.alreadyRegistered index.relation)
      modify (·.put index)) registry := rfl
  rw [checked]
  cases registry.contains index.relation <;> rfl

/-- The result of an action is replaced, if it has one. -/
theorem on_return {action : Action Unit} (a : SearchIndex) (registry : Registry) :
    Action.on (do action; return a) registry =
      ((action.on registry).1, (action.on registry).2.map fun _ => a) := by
  simp only [Action.on]
  rw [ExceptT.run_bind, StateT.run_bind]
  generalize action.run.run registry = ran
  obtain ⟨result, registry'⟩ := ran
  cases result <;> rfl

/-- The index is put down after all checks. -/
theorem apply_eq (registry : Registry) (r : Registration) :
    registry.apply r =
      match registry.register r.relation r.fields r.indexName r.keyField with
      | .ok (registry', index) => (registry', .ok index)
      | .error e => (registry, .error e) := by
  rw [register, ← Registration.build]
  cases built : r.build with
  | error e =>
    rw [apply, Action.register, built]
    rfl
  | ok index =>
    have added : registry.apply r = Action.on (do Action.add index; return index) registry := by
      rw [apply, Action.register, built]
      rfl
    rw [added, on_return, on_add]
    cases known : registry.contains index.relation with
    | true =>
      -- The index is refused before it is put down, so nothing has been changed.
      have refused : registry.add index = .error (.alreadyRegistered index.relation) := if_pos known
      simp only [bind, Except.bind, refused, if_true]
      rfl
    | false =>
      have added : registry.add index = .ok (registry.put index) := by
        rw [put_of_fresh known]
        exact if_neg (by simp [known])
      simp only [bind, Except.bind, added]
      rfl

/-- What a registration does: it puts the index that it declares behind all others if its relation
has none yet, and nothing at all if it fails. -/
theorem apply_cases (registry : Registry) (r : Registration) :
    (∃ index, r.build = .ok index ∧ r.relation ∉ registry.indexes.map (·.relation) ∧
      registry.apply r = (⟨registry.indexes ++ [index]⟩, .ok index)) ∨
    ∃ e, registry.apply r = (registry, .error e) ∧
      ¬ ((∃ index, r.build = .ok index) ∧ r.relation ∉ registry.indexes.map (·.relation)) := by
  rw [apply_eq, register, ← Registration.build]
  cases built : r.build with
  | error e => exact .inr ⟨e, rfl, fun h => nomatch h.1⟩
  | ok index =>
    have relation := Registration.relation_of_build built
    cases added : registry.add index with
    | error e =>
      refine .inr ⟨e, by simp only [bind, Except.bind, added], fun h => ?_⟩
      cases added.symm.trans (add_eq_ok_iff.mpr ⟨relation ▸ h.2, rfl⟩)
    | ok registry' =>
      obtain ⟨fresh, grown⟩ := add_eq_ok_iff.mp added
      refine .inl ⟨index, rfl, relation ▸ fresh, ?_⟩
      simp only [bind, Except.bind, added, pure, Except.pure, ← grown]

theorem apply_eq_ok_iff : (registry.apply r).2 = .ok index ↔
    r.build = .ok index ∧ r.relation ∉ registry.indexes.map (·.relation) := by
  obtain ⟨index', built, fresh, done⟩ | ⟨e, failed, unfit⟩ := registry.apply_cases r
  · rw [done, built]
    exact (and_iff_left fresh).symm
  · rw [failed]
    exact iff_of_false nofun fun h => unfit ⟨⟨index, h.1⟩, h.2⟩

theorem apply_of_ok (h : (registry.apply r).2 = .ok index) :
    (registry.apply r).1.indexes = registry.indexes ++ [index] := by
  obtain ⟨index', -, -, done⟩ | ⟨e, failed, -⟩ := registry.apply_cases r
  · rw [done] at h ⊢
    cases h
    rfl
  · rw [failed] at h
    cases h

theorem apply_of_error {e : SchemaError} (h : (registry.apply r).2 = .error e) :
    (registry.apply r).1 = registry := by
  obtain ⟨index', -, -, done⟩ | ⟨e, failed, -⟩ := registry.apply_cases r
  · rw [done] at h
    cases h
  · rw [failed]

theorem Constructed.apply (h : registry.Constructed) (r : Registration) :
    (registry.apply r).1.Constructed := by
  obtain ⟨index, built, fresh, done⟩ | ⟨e, failed, -⟩ := registry.apply_cases r
  · rw [done]
    have fresh : index.relation ∉ registry.indexes.map (·.relation) :=
      Registration.relation_of_build built ▸ fresh
    exact .add h built (add_eq_ok_iff.mpr ⟨fresh, rfl⟩)
  · rw [failed]
    exact h

/-! ## A run -/

/-- A run puts behind the indexes that are there the ones that it answers with, in order. -/
theorem indexes_run (registry : Registry) (registrations : List Registration) :
    (registry.run registrations).1.indexes =
      registry.indexes ++ (registry.run registrations).2.filterMap Except.toOption := by
  induction registrations generalizing registry with
  | nil => exact (List.append_nil _).symm
  | cons r rest ih =>
    rw [run]
    simp only [ih]
    obtain ⟨index, -, -, done⟩ | ⟨e, failed, -⟩ := registry.apply_cases r
    · simp [done, Except.toOption]
    · rw [failed]
      rfl

theorem Constructed.run (h : registry.Constructed) (registrations : List Registration) :
    (registry.run registrations).1.Constructed := by
  induction registrations generalizing registry with
  | nil => exact h
  | cons r rest ih => exact ih (h.apply r)

theorem get?_run {relation : String} (h : registry.get? relation = some index)
    (registrations : List Registration) :
    (registry.run registrations).1.get? relation = some index := by
  rw [get?, indexes_run, List.find?_append, ← get?, h, Option.some_or]

/-! ## Registries -/

/-- The indexes are of distinct relations, each is found under its own relation and nothing else
is found, and all are sound. -/
structure IsSound (registry : Registry) : Prop where
  distinct : (registry.indexes.map (·.relation)).Nodup
  found : ∀ relation index, registry.get? relation = some index ↔
    index ∈ registry.indexes ∧ index.relation = relation
  contains : ∀ relation, registry.contains relation = true ↔
    relation ∈ registry.indexes.map (·.relation)
  sound : ∀ index ∈ registry.indexes, index.IsSound

theorem Constructed.sound (h : registry.Constructed) :
    ∀ index ∈ registry.indexes, index.IsSound := by
  induction h with
  | empty => exact List.forall_mem_nil _
  | @add registry registry' index relation fields name key _ built added ih =>
    rw [(add_eq_ok_iff.mp added).2]
    have built : (⟨relation, fields, name, key⟩ : Registration).build = .ok index := built
    exact List.forall_mem_append.mpr
      ⟨ih, List.forall_mem_singleton.mpr (Registration.isSound_of_build built)⟩

theorem Constructed.isSound (h : registry.Constructed) : registry.IsSound := by
  refine ⟨h.nodup_relations, fun relation index => ⟨get?_eq_some, ?_⟩, fun _ => contains_iff,
    h.sound⟩
  rintro ⟨registered, rfl⟩
  have known := contains_iff.mpr (List.mem_map_of_mem registered)
  obtain ⟨other, found⟩ := Option.isSome_iff_exists.mp known
  rw [found, h.eq_of_get? found registered rfl]

/-! ## The origin of a registry -/

/-- What an entry of a schema says of a relation as a registration, unless it has no fields. -/
def registration? (relation : String) : SchemaEntry → Option Registration
  | .fields fields => some ⟨relation, fields, none, none⟩
  | .described fields indexName keyField => fields.map (⟨relation, ·, indexName, keyField⟩)

/-- The registrations that an origin stands for. -/
def Origin.StandsFor : Origin → List Registration → Prop
  | .indexes given, registrations => registrations = given
  | .schema rows, registrations =>
    List.Forall₂ (fun row r => registration? row.1 row.2 = some r) rows registrations

theorem registerEntry_eq_ok_iff {relation : String} {entry : SchemaEntry} :
    registry.registerEntry relation entry = .ok registry' ↔
      ∃ r index, registration? relation entry = some r ∧ r.build = .ok index ∧
        registry.add index = .ok registry' := by
  have registered (r : Registration) :
      (registry.register r.relation r.fields r.indexName r.keyField).map Prod.fst = .ok registry' ↔
        ∃ index, r.build = .ok index ∧ registry.add index = .ok registry' := by
    rw [Except.map_eq_ok, register, ← Registration.build]
    constructor
    · rintro ⟨⟨_, _⟩, h, rfl⟩
      obtain ⟨index, built, h⟩ := Except.bind_eq_ok.mp h
      obtain ⟨_, added, h⟩ := Except.bind_eq_ok.mp h
      cases h
      exact ⟨_, built, added⟩
    · rintro ⟨index, built, added⟩
      exact ⟨(registry', index),
        Except.bind_eq_ok.mpr ⟨index, built, Except.bind_eq_ok.mpr ⟨registry', added, rfl⟩⟩, rfl⟩
  cases entry with
  | fields fields =>
    simpa [registerEntry, registration?] using registered ⟨relation, fields, none, none⟩
  | described fields indexName keyField =>
    cases fields with
    | none => simp [registerEntry, registration?]
    | some fields =>
      simpa [registerEntry, registration?] using registered ⟨relation, fields, indexName, keyField⟩

/-- Adding indexes one by one. -/
theorem foldlM_add_eq_ok_iff {indexes : List SearchIndex}
    (distinct : (registry.indexes.map (·.relation)).Nodup) :
    indexes.foldlM add registry = .ok registry' ↔
      registry'.indexes = registry.indexes ++ indexes ∧
        (registry'.indexes.map (·.relation)).Nodup := by
  induction indexes generalizing registry with
  | nil =>
    rw [List.foldlM_nil, List.append_nil]
    constructor
    · rintro ⟨⟩
      exact ⟨rfl, distinct⟩
    · rintro ⟨same, -⟩
      cases registry
      cases same
      rfl
  | cons index indexes ih =>
    rw [List.foldlM_cons, Except.bind_eq_ok]
    constructor
    · rintro ⟨next, added, rest⟩
      obtain ⟨fresh, grown⟩ := add_eq_ok_iff.mp added
      -- With a fresh relation the relations stay distinct, as the rest of the indexes needs it.
      have longer : (next.indexes.map (·.relation)).Nodup := by
        rw [grown, List.map_append, List.map_singleton, ← List.concat_eq_append]
        exact distinct.concat fresh
      rw [ih longer, grown, List.append_assoc] at rest
      exact rest
    · rintro ⟨all, unique⟩
      rw [List.append_cons] at all
      have longer : ((registry.indexes ++ [index]).map (·.relation)).Nodup := by
        rw [all, List.map_append] at unique
        exact unique.of_append_left
      have fresh : index.relation ∉ registry.indexes.map (·.relation) := by
        rw [List.map_append, List.map_singleton] at longer
        exact fun known => List.disjoint_of_nodup_append longer known (List.mem_singleton_self _)
      exact ⟨⟨registry.indexes ++ [index]⟩, add_eq_ok_iff.mpr ⟨fresh, rfl⟩,
        (ih longer).mpr ⟨all, unique⟩⟩

/-- Registering the entries of a schema one by one: each is built before the next one is read. -/
theorem foldlM_registerEntry_eq_ok_iff {rows : List (String × SchemaEntry)} :
    rows.foldlM (fun registry row => registry.registerEntry row.1 row.2) registry = .ok registry' ↔
      ∃ given, Origin.StandsFor (.schema rows) given ∧ ∃ indexes,
        List.Forall₂ (fun r index => r.build = .ok index) given indexes ∧
        indexes.foldlM add registry = .ok registry' := by
  induction rows generalizing registry with
  | nil =>
    constructor
    · exact fun h => ⟨[], .nil, [], .nil, h⟩
    · rintro ⟨_, stated, _, built, h⟩
      cases stated
      cases built
      exact h
  | cons row rows ih =>
    rw [List.foldlM_cons, Except.bind_eq_ok]
    constructor
    · rintro ⟨next, entered, rest⟩
      obtain ⟨r, index, stated, built, added⟩ := registerEntry_eq_ok_iff.mp entered
      obtain ⟨given, others, indexes, builts, folded⟩ := ih.mp rest
      refine ⟨r :: given, .cons stated others, index :: indexes, .cons built builts, ?_⟩
      rw [List.foldlM_cons, Except.bind_eq_ok]
      exact ⟨next, added, folded⟩
    · rintro ⟨_, stated, _, built, folded⟩
      cases stated with
      | cons first others =>
        cases built with
        | cons built builts =>
          rw [List.foldlM_cons, Except.bind_eq_ok] at folded
          obtain ⟨next, added, folded⟩ := folded
          exact ⟨next, registerEntry_eq_ok_iff.mpr ⟨_, _, first, built, added⟩,
            ih.mpr ⟨_, others, _, builts, folded⟩⟩

/-- Both origins build indexes and add them one by one. -/
theorem Origin.found_eq_ok_iff_foldlM {origin : Origin} :
    origin.found = .ok registry ↔ ∃ given, origin.StandsFor given ∧ ∃ indexes,
      List.Forall₂ (fun r index => r.build = .ok index) given indexes ∧
      indexes.foldlM add empty = .ok registry := by
  cases origin with
  | indexes given =>
    rw [found, Except.bind_eq_ok]
    simp only [Registration.mapM_build_eq_ok_iff, StandsFor, exists_eq_left]
    rfl
  | schema rows => exact foldlM_registerEntry_eq_ok_iff

/-- A registry is founded exactly if all indexes can be built and are of distinct relations. -/
theorem Origin.found_eq_ok_iff {origin : Origin} :
    origin.found = .ok registry ↔ ∃ given, origin.StandsFor given ∧
      List.Forall₂ (fun r index => r.build = .ok index) given registry.indexes ∧
      (given.map (·.relation)).Nodup := by
  have added (indexes : List SearchIndex) : indexes.foldlM add empty = .ok registry ↔
      registry.indexes = indexes ∧ (registry.indexes.map (·.relation)).Nodup :=
    foldlM_add_eq_ok_iff List.nodup_nil
  rw [found_eq_ok_iff_foldlM]
  refine exists_congr fun given => and_congr_right fun _ => ?_
  simp only [added]
  constructor
  · rintro ⟨_, built, rfl, distinct⟩
    exact ⟨built, Registration.relations_of_build built ▸ distinct⟩
  · rintro ⟨built, distinct⟩
    exact ⟨_, built, rfl, Registration.relations_of_build built ▸ distinct⟩

theorem Constructed.foldlM_add {given : List Registration} {indexes : List SearchIndex}
    (built : List.Forall₂ (fun r index => r.build = .ok index) given indexes)
    (h : registry.Constructed) (folded : indexes.foldlM Registry.add registry = .ok registry') :
    registry'.Constructed := by
  induction built generalizing registry with
  | nil =>
    cases folded
    exact h
  | cons built _ ih =>
    rw [List.foldlM_cons, Except.bind_eq_ok] at folded
    obtain ⟨next, added, rest⟩ := folded
    exact ih (.add h built added) rest

theorem constructed_of_found {origin : Origin} (h : origin.found = .ok registry) :
    registry.Constructed := by
  obtain ⟨given, -, indexes, built, folded⟩ := Origin.found_eq_ok_iff_foldlM.mp h
  exact Constructed.empty.foldlM_add built folded

/-- A registry is founded exactly if its indexes can be built and are of distinct relations, in this
order. Whatever is registered then, it is sound; the indexes with which registrations were answered
stand in order behind the first ones, and each stays under its relation whatever comes later. A
registration is answered exactly if it is valid and its relation is new, and changes nothing if it
fails. -/
theorem registrations_extend_registry (origin : Origin) :
    (∀ start, origin.found = .ok start ↔ ∃ given, origin.StandsFor given ∧
      List.Forall₂ (fun r index => r.build = .ok index) given start.indexes ∧
      (given.map (·.relation)).Nodup) ∧
    (∀ (r : Registration) index, r.build = .ok index ↔ ∃ fieldNames, r.Declares fieldNames ∧
      index = ⟨r.relation, r.name, fieldNames, r.keyField⟩) ∧
    ∀ start, origin.found = .ok start → ∀ registrations finish answers,
      start.run registrations = (finish, answers) →
      finish.IsSound ∧
      finish.indexes = start.indexes ++ answers.filterMap Except.toOption ∧
      (∀ relation index, finish.get? relation = some index →
        ∀ later, (finish.run later).1.get? relation = some index) ∧
      ∀ r : Registration,
        (∀ index, (finish.apply r).2 = .ok index ↔
          r.build = .ok index ∧ finish.contains r.relation = false) ∧
        (∀ index, (finish.apply r).2 = .ok index →
          (finish.apply r).1.indexes = finish.indexes ++ [index]) ∧
        ∀ e, (finish.apply r).2 = .error e → (finish.apply r).1 = finish := by
  refine ⟨fun _ => Origin.found_eq_ok_iff, fun _ _ => Registration.build_eq_ok_iff, ?_⟩
  intro start founded registrations finish answers ran
  have reached : finish.Constructed := by
    have := (constructed_of_found founded).run registrations
    rwa [ran] at this
  refine ⟨reached.isSound, ?_, fun _ _ found => get?_run found, fun r => ⟨?_, ?_, ?_⟩⟩
  · have all := start.indexes_run registrations
    rwa [ran] at all
  · intro index
    rw [apply_eq_ok_iff, ← contains_iff, Bool.not_eq_true]
  · exact fun index => apply_of_ok
  · exact fun e => apply_of_error

/-- A relation that is known, a default name, and a field that is declared twice. -/
def laterRegistrations : List Registration :=
  [⟨"calls", .list [.text "agent"], none, none⟩,
   ⟨"public.notes", .list [.text "id", .text "body"], some "", some "id"⟩,
   ⟨"tags", .list [.text "name", .text "name"], none, none⟩]

/-- The schema declares a field by one of another index. -/
theorem notes_registered_behind_calls :
    ∃ start finish : Registry, ∃ answers,
      Origin.found (.schema [("calls", .fields (.tuple [.text "transcript",
        .field ⟨"length", "other_idx"⟩]))]) = .ok start ∧
      start.run laterRegistrations = (finish, answers) ∧ finish.IsSound ∧
      finish.indexes = [⟨"calls", "calls_search_idx", ["transcript", "length"], none⟩,
        ⟨"public.notes", "notes_search_idx", ["id", "body"], some "id"⟩] := by
  have founded : Origin.found (.schema [("calls", .fields (.tuple [.text "transcript",
      .field ⟨"length", "other_idx"⟩]))]) =
      .ok ⟨[⟨"calls", "calls_search_idx", ["transcript", "length"], none⟩]⟩ := by rfl
  obtain ⟨sound, all, -⟩ :=
    (registrations_extend_registry _).2.2 _ founded laterRegistrations _ _ rfl
  exact ⟨_, _, _, founded, rfl, sound, all.trans rfl⟩

end Registry

end SearchSql
