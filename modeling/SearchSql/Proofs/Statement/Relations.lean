import SearchSql.Proofs.Statement.Collecting

/-!
# The relations of a statement

The relations of a statement are those that its operations have set and joined, one for each that
succeeded and in their order (`refs_run`). Each has an alias of its own and names that were checked,
and the first is the only one that is not joined (`wellJoined_run`).
-/

namespace SearchSql

namespace Statement

/-- The relation that an operation sets or joins, if it succeeds. -/
def Operation.ref? : Operation → Option RelationRef
  | .selectFrom relation aliasName => some ⟨relation, aliasOf relation aliasName, none⟩
  | .join relation aliasName condition kind =>
    some ⟨relation, aliasOf relation aliasName, some ⟨Text.upper kind, condition⟩⟩
  | _ => none

/-- The relations that the operations of a run have set and joined, given their answers. -/
def joined (ops : List Operation) (answers : List (Except StatementError Answer)) :
    List RelationRef :=
  (passed ops answers).filterMap (·.ref?)

theorem joined_cons (op : Operation) (ops : List Operation)
    (answer : Except StatementError Answer) (answers : List (Except StatementError Answer)) :
    joined (op :: ops) (answer :: answers) =
      (if answer.isOk then op.ref?.toList else []) ++ joined ops answers := by
  rw [joined, passed, List.zip_cons_cons, List.filter_cons]
  by_cases ok : answer.isOk = true
  · rw [if_pos ok, if_pos ok, List.map_cons, List.filterMap_cons]
    cases op.ref? <;> rfl
  · rw [if_neg ok, if_neg ok]
    rfl

/-- What is required of a relation that is added to a statement. -/
structure Admits (s : Statement) (ref : RelationRef) : Prop where
  relation : Name.checkRelation ref.relation = .ok ()
  aliasName : Name.check ref.aliasName = .ok ()
  fresh : ref.aliasName ∉ s.aliases
  place : ref.join = none ↔ s.refs = []
  join : ∀ join ∈ ref.join, join.kind ∈ joinKinds ∧
    (join.kind ≠ "CROSS" → isMissing join.condition = false)

/-- The relations of a statement, as they must be to be written one after the other. -/
structure WellJoined (s : Statement) : Prop where
  names : ∀ ref ∈ s.refs,
    Name.checkRelation ref.relation = .ok () ∧ Name.check ref.aliasName = .ok ()
  unique : s.aliases.Nodup
  first : ∀ ref rest, s.refs = ref :: rest → ref.join = none ∧ ∀ other ∈ rest, other.join ≠ none
  joins : ∀ ref ∈ s.refs, ∀ join ∈ ref.join, join.kind ∈ joinKinds ∧
    (join.kind ≠ "CROSS" → isMissing join.condition = false)

variable {s s' : Statement}

/-! ## One operation -/

theorem ref?_eq_none {aliasName : String} (h : s.ref? aliasName = none) :
    aliasName ∉ s.aliases := by
  intro known
  obtain ⟨ref, hmem, same⟩ := List.mem_map.mp known
  exact List.find?_eq_none.mp h ref hmem (by simpa using same)

theorem admits_of_addRef {ref : RelationRef} (h : s.addRef ref = .ok s')
    (place : ref.join = none ↔ s.refs = [])
    (join : ∀ join ∈ ref.join, join.kind ∈ joinKinds ∧
      (join.kind ≠ "CROSS" → isMissing join.condition = false)) :
    s.Admits ref ∧ s' = { s with refs := s.refs ++ [ref] } := by
  refine ⟨?_, addRef_eq_ok h⟩
  obtain ⟨_, relation, h⟩ := Except.bind_eq_ok.mp h
  obtain ⟨_, aliasName, h⟩ := Except.bind_eq_ok.mp h
  refine ⟨Except.mapError_eq_ok.mp relation, Except.mapError_eq_ok.mp aliasName, ?_, place, join⟩
  cases hother : s.ref? ref.aliasName with
  | some other =>
    simp only [hother] at h
    cases h
  | none => exact ref?_eq_none hother

theorem admits_of_selectFrom {relation : String} {aliasName : Option String}
    (h : s.selectFrom relation aliasName = .ok s') :
    ∃ ref, Operation.ref? (.selectFrom relation aliasName) = some ref ∧ s.Admits ref ∧
      s' = { s with refs := s.refs ++ [ref] } := by
  unfold selectFrom at h
  by_cases hrefs : (! s.refs.isEmpty) = true
  · rw [if_pos hrefs] at h
    cases h
  rw [if_neg hrefs] at h
  have empty : s.refs = [] := by simpa using hrefs
  exact ⟨_, rfl, admits_of_addRef h (iff_of_true rfl empty) (fun _ hjoin => nomatch hjoin)⟩

theorem admits_of_join {relation kind : String} {aliasName condition : Option String}
    (h : s.join relation aliasName condition kind = .ok s') :
    ∃ ref, Operation.ref? (.join relation aliasName condition kind) = some ref ∧ s.Admits ref ∧
      s' = { s with refs := s.refs ++ [ref] } := by
  unfold join at h
  by_cases hrefs : s.refs.isEmpty = true
  · rw [if_pos hrefs] at h
    cases h
  rw [if_neg hrefs] at h
  by_cases hkind : (! joinKinds.contains (Text.upper kind)) = true
  · rw [if_pos hkind] at h
    cases h
  rw [if_neg hkind] at h
  by_cases hcondition : Text.upper kind ≠ "CROSS" ∧ isMissing condition = true
  · rw [if_pos hcondition] at h
    cases h
  rw [if_neg hcondition] at h
  have later : s.refs ≠ [] := by simpa using hrefs
  have known : Text.upper kind ∈ joinKinds := by simpa using hkind
  refine ⟨_, rfl, admits_of_addRef h (iff_of_false (Option.some_ne_none _) later) ?_⟩
  rintro join ⟨⟩
  refine ⟨known, fun crossed => ?_⟩
  by_contra missing
  exact hcondition ⟨crossed, by simpa using missing⟩

/-- An operation adds the relation it names behind the others and succeeds, or it leaves the
relations as they are; then it names none or fails. -/
theorem refs_apply (s : Statement) (op : Operation) :
    (∃ ref, op.ref? = some ref ∧ (s.apply op).2.isOk = true ∧ s.Admits ref ∧
      (s.apply op).1.refs = s.refs ++ [ref]) ∨
    ((op.ref? = none ∨ (s.apply op).2.isOk = false) ∧ (s.apply op).1.refs = s.refs) := by
  have changed {next : Except StatementError Statement} {named : Option RelationRef}
      (hnext : ∀ s', next = .ok s' → ∃ ref, named = some ref ∧ s.Admits ref ∧
        s' = { s with refs := s.refs ++ [ref] }) :
      (∃ ref, named = some ref ∧ (s.change next).2.isOk = true ∧ s.Admits ref ∧
        (s.change next).1.refs = s.refs ++ [ref]) ∨
      ((named = none ∨ (s.change next).2.isOk = false) ∧ (s.change next).1.refs = s.refs) := by
    cases next with
    | error e => exact Or.inr ⟨Or.inr rfl, rfl⟩
    | ok s' =>
      obtain ⟨ref, hnamed, admits, rfl⟩ := hnext s' rfl
      exact Or.inl ⟨ref, hnamed, rfl, admits, rfl⟩
  have framed := frame_apply s op
  cases op with
  | selectFrom relation aliasName => exact changed fun _ hnext => admits_of_selectFrom hnext
  | join relation aliasName condition kind => exact changed fun _ hnext => admits_of_join hnext
  | addColumns columns => exact Or.inr ⟨Or.inl rfl, rfl⟩
  | addCondition fragment => exact Or.inr ⟨Or.inl rfl, rfl⟩
  | addOrdering fragment => exact Or.inr ⟨Or.inl rfl, rfl⟩
  | _ => exact Or.inr ⟨Or.inl rfl, refs_of_frame framed⟩

/-! ## Runs -/

theorem refs_run (s : Statement) (ops : List Operation) :
    (s.run ops).1.refs = s.refs ++ joined ops (s.run ops).2 := by
  induction ops generalizing s with
  | nil => exact (List.append_nil _).symm
  | cons op rest ih =>
    have later := ih (s.apply op).1
    have split : joined (op :: rest) (s.run (op :: rest)).2 =
        (if (s.apply op).2.isOk then op.ref?.toList else []) ++
          joined rest ((s.apply op).1.run rest).2 := joined_cons op rest _ _
    refine later.trans ?_
    rw [split, ← List.append_assoc]
    congr 1
    rcases refs_apply s op with ⟨ref, named, ok, -, added⟩ | ⟨named | failed, kept⟩
    · rw [added, named, if_pos ok]
      rfl
    · rw [kept, named, Option.toList_none, ite_self, List.append_nil]
    · rw [kept, failed]
      exact (List.append_nil _).symm

theorem WellJoined.append (h : s.WellJoined) {ref : RelationRef} (admits : s.Admits ref)
    (added : s'.refs = s.refs ++ [ref]) : s'.WellJoined := by
  constructor
  · rw [added]
    refine List.forall_mem_append.mpr ⟨h.names, List.forall_mem_singleton.mpr ?_⟩
    exact ⟨admits.relation, admits.aliasName⟩
  · rw [aliases, added, List.map_append, List.map_singleton, ← List.concat_eq_append]
    exact h.unique.concat admits.fresh
  · intro first rest split
    rw [added] at split
    cases hrefs : s.refs with
    | nil =>
      rw [hrefs] at split
      cases split
      exact ⟨admits.place.mpr hrefs, List.forall_mem_nil _⟩
    | cons first' rest' =>
      rw [hrefs] at split
      cases split
      obtain ⟨unjoined, others⟩ := h.first first rest' hrefs
      refine ⟨unjoined, List.forall_mem_append.mpr ⟨others, List.forall_mem_singleton.mpr ?_⟩⟩
      intro unplaced
      rw [admits.place.mp unplaced] at hrefs
      cases hrefs
  · rw [added]
    exact List.forall_mem_append.mpr ⟨h.joins, List.forall_mem_singleton.mpr admits.join⟩

theorem WellJoined.of_refs (h : s.WellJoined) (kept : s'.refs = s.refs) : s'.WellJoined := by
  constructor
  · rw [kept]
    exact h.names
  · rw [aliases, kept]
    exact h.unique
  · rw [kept]
    exact h.first
  · rw [kept]
    exact h.joins

theorem WellJoined.preserve_run (h : s.WellJoined) (ops : List Operation) :
    (s.run ops).1.WellJoined := by
  induction ops generalizing s with
  | nil => exact h
  | cons op rest ih =>
    refine ih ?_
    rcases refs_apply s op with ⟨ref, -, -, admits, added⟩ | ⟨-, kept⟩
    · exact h.append admits added
    · exact h.of_refs kept

theorem wellJoined_run (registry : Registry) (strategy : FoldStrategy) (ops : List Operation) :
    ((new registry strategy).run ops).1.WellJoined := by
  have initial : (new registry strategy).WellJoined := by
    constructor
    · exact List.forall_mem_nil _
    · exact List.nodup_nil
    · intro ref rest split
      cases split
    · exact List.forall_mem_nil _
  exact initial.preserve_run ops

/-- The relation of an alias is the only one with that alias. -/
theorem WellJoined.eq_of_aliasName (h : s.WellJoined) {ref other : RelationRef}
    (href : ref ∈ s.refs) (hother : other ∈ s.refs) (same : ref.aliasName = other.aliasName) :
    ref = other :=
  List.inj_on_of_nodup_map h.unique href hother same

theorem WellJoined.exists_first (h : s.WellJoined) (given : s.refs ≠ []) :
    ∃ first rest, s.refs = first :: rest ∧ first.join = none ∧
      ∀ ref ∈ rest, ∃ join, ref.join = some join ∧ join.kind ∈ joinKinds := by
  obtain ⟨first, rest, hrefs⟩ := List.exists_cons_of_ne_nil given
  obtain ⟨unjoined, others⟩ := h.first first rest hrefs
  refine ⟨first, rest, hrefs, unjoined, ?_⟩
  intro ref href
  obtain ⟨join, hjoin⟩ := Option.ne_none_iff_exists'.mp (others ref href)
  have known : ref ∈ s.refs := by
    rw [hrefs]
    exact List.mem_cons_of_mem _ href
  exact ⟨join, hjoin, (h.joins ref known join hjoin).1⟩

end Statement

end SearchSql
