import Mathlib.Tactic.NormNum
import SearchSql.Proofs.Call.Numbers
import SearchSql.Proofs.Number.Worth
import SearchSql.Proofs.Statement.Numbering

/-!
# What typed parameters hold

The numbers of a statement are bound to parameters of numeric types. No number is refused for its
size, so a parameter need not hold its number: all of them do exactly if the numbers that were given
lie within the types that the calls declare for them (`typed_placeholders_hold_iff`).
-/

namespace SearchSql

/-- The largest number of single precision. -/
def maxSingle : ℚ := (2 - 2 ^ (-23 : ℤ)) * 2 ^ 127

/-- A parameter of this type can hold a value. -/
def NumericType.Holds : NumericType → Value → Prop
  | .integer, .int n => -2 ^ 31 ≤ n ∧ n < 2 ^ 31
  | .bigint, .int n => -2 ^ 63 ≤ n ∧ n < 2 ^ 63
  | .real, .real (.finite x) => |x.worth| ≤ maxSingle
  | _, _ => False

/-- The numbers of a search lie within the types that are declared for them. -/
structure SearchTree.IsWithin (tree : SearchTree) : Prop where
  terms : ∀ f n, .term f (.int n) ∈ tree.root.nodes → -2 ^ 63 ≤ n ∧ n < 2 ^ 63
  slops : ∀ f phrases (n : ℕ), .phrase f phrases (some n) ∈ tree.root.nodes → n < 2 ^ 31
  factors : ∀ query factor, .boost query factor ∈ tree.root.nodes →
    |factor.value.worth| ≤ maxSingle
  options : ∀ o (n : ℕ), tree.options.get? o = some (.int n) → n < 2 ^ 31

/-- The distance of a fuzzy term is the only number that lies within its type in any case. -/
theorem SearchTree.isWithin_iff {tree : SearchTree} :
    tree.IsWithin ↔ ∀ type v, tree.Gives type v → type.Holds v := by
  have natural (n : ℕ) : NumericType.integer.Holds (.int n) ↔ n < 2 ^ 31 := by
    simp only [NumericType.Holds]
    omega
  constructor
  · intro h type v gives
    cases gives with
    | term hq => exact h.terms _ _ hq
    | distance hq given =>
      exact (natural _).mpr (lt_trans (Fin.isLt _) (by decide))
    | slop hq => exact (natural _).mpr (h.slops _ _ _ hq)
    | factor hq => exact h.factors _ _ hq
    | option ho => exact (natural _).mpr (h.options _ _ ho)
  · intro h
    exact ⟨fun f n hq => h _ _ (.term hq), fun f phrases n hq => (natural n).mp (h _ _ (.slop hq)),
      fun query factor hq => h _ _ (.factor hq), fun o n ho => (natural n).mp (h _ _ (.option ho))⟩

/-! ## Numbers as values -/

/-- The value that is this number. -/
def Number.toValue : Number → Value
  | .int n => .int n
  | .real x => .real (.finite x)

theorem Value.number?_eq_some {v : Value} {n : Number} : v.number? = some n ↔ v = n.toValue := by
  constructor
  · intro h
    cases v with
    | int m => cases h; rfl
    | real x =>
      cases x with
      | finite x => cases h; rfl
      | _ => cases h
    | _ => cases h
  · rintro rfl
    cases n <;> rfl

namespace SearchTree.Gives

variable {tree : SearchTree} {type : NumericType}

theorem number?_ne_none {v : Value} (h : tree.Gives type v) : v.number? ≠ none := by
  cases h <;> exact nofun

/-- A small natural number lies within each type of whole numbers. -/
theorem holds_int {n : ℕ} (h : tree.Gives type (.int n)) (small : n < 2 ^ 31) :
    type.Holds (.int n) := by
  cases type with
  | real => cases h
  | integer =>
    rw [NumericType.Holds]
    omega
  | bigint =>
    rw [NumericType.Holds]
    omega

end SearchTree.Gives

/-! ## Statements -/

namespace Statement

/-- What is told of the outcome of a build is told of SQL that is built. -/
theorem exists_build_of_outcome {β : Type} {s : Statement} {settings : Settings}
    {f : String × List Value → β} {b : β}
    (h : (s.build settings).2.toOption.map f = some b) :
    ∃ s' sql parameters, s.build settings = (s', .ok (sql, parameters)) ∧
      f (sql, parameters) = b := by
  generalize s.build settings = built at h
  obtain ⟨s', _ | ⟨sql, parameters⟩⟩ := built
  · cases h
  · exact ⟨s', sql, parameters, rfl, Option.some.inj h⟩

/-- The casts in the calls of a statement are those of the numbers that its searches have. -/
theorem typed_of_emitAll {trees : List SearchTree} {maxDepth maxLength first : Int}
    {es : List Expression} (names : ∀ tree ∈ trees, tree.HasPlainNames)
    (validated : ∀ tree ∈ trees, tree.IsValidated)
    (h : emitAll ⟨.paradedb, true, maxDepth, maxLength⟩ first trees = .ok es) :
    (∀ k type, (k, type) ∈ es.flatMap (fun e => typedPlaceholders e.sql) →
      ∃ (i : ℕ) (v : Value), k = first + i ∧ (es.flatMap (·.parameters))[i]? = some v ∧
        ∃ tree ∈ trees, tree.Gives type v) ∧
    ∀ tree ∈ trees, ∀ type v, tree.Gives type v →
      ∃ i : ℕ, (first + i, type) ∈ es.flatMap (fun e => typedPlaceholders e.sql) ∧
        (es.flatMap (·.parameters))[i]? = some v := by
  induction trees generalizing first es with
  | nil =>
    cases h
    simp
  | cons tree rest ih =>
    obtain ⟨e, es', he, hrest, rfl⟩ := emitAll_cons h
    obtain ⟨hnames, laterNames⟩ := List.forall_mem_cons.mp names
    obtain ⟨hvalid, laterValid⟩ := List.forall_mem_cons.mp validated
    obtain ⟨read, written⟩ := SearchTree.typed_of_emit hnames hvalid he
    obtain ⟨laterRead, laterWritten⟩ := ih laterNames laterValid hrest
    have here {i : ℕ} {v : Value} (hi : e.parameters[i]? = some v) :
        (e.parameters ++ es'.flatMap (·.parameters))[i]? = some v := by
      obtain ⟨inside, -⟩ := List.getElem?_eq_some_iff.mp hi
      rw [List.getElem?_append_left inside, hi]
    have later {i : ℕ} {v : Value} (hi : (es'.flatMap (·.parameters))[i]? = some v) :
        (e.parameters ++ es'.flatMap (·.parameters))[e.parameters.length + i]? = some v := by
      rw [List.getElem?_append_right (Nat.le_add_right _ _), Nat.add_sub_cancel_left, hi]
    -- The parameters of later calls stand behind those of this one, as their numbers do.
    have shift (i : ℕ) : first + e.parameters.length + i = first + (e.parameters.length + i : ℕ) := by
      push_cast
      omega
    rw [List.flatMap_cons, List.flatMap_cons]
    constructor
    · intro k type hk
      rcases List.mem_append.mp hk with hk | hk
      · obtain ⟨i, v, number, hi, gives⟩ := read k type hk
        exact ⟨i, v, number, here hi, tree, List.mem_cons_self, gives⟩
      · obtain ⟨i, v, number, hi, other, hother, gives⟩ := laterRead k type hk
        exact ⟨_, v, number.trans (shift i), later hi, other, List.mem_cons_of_mem _ hother, gives⟩
    · intro other hother type v gives
      rcases List.mem_cons.mp hother with rfl | hother
      · obtain ⟨i, hk, hi⟩ := written type v gives
        exact ⟨i, List.mem_append_left _ hk, here hi⟩
      · obtain ⟨i, hk, hi⟩ := laterWritten other hother type v gives
        exact ⟨_, List.mem_append_right _ (shift i ▸ hk), later hi⟩

/-- Each placeholder that is cast to a numeric type leads to a number of that kind: a term to
`bigint`, a distance, a slop or a number of rows to `integer`, a factor to `real`; and each of these
numbers has such a placeholder. They all hold their numbers exactly if all searches are within the
types. -/
theorem typed_placeholders_hold_iff (registry : Registry) (strategy : FoldStrategy)
    (ops : List Operation) (maxDepth maxLength : Int) {s : Statement} {sql : String}
    {parameters : List Value} (constructed : registry.Constructed)
    (h : ((new registry strategy).run ops).1.build ⟨.paradedb, true, maxDepth, maxLength⟩ =
      (s, .ok (sql, parameters))) :
    ∃ trees es, s.trees = some trees ∧
      emitAll ⟨.paradedb, true, maxDepth, maxLength⟩ 1 trees = .ok es ∧
      sql = s.render es ∧ parameters = es.flatMap (·.parameters) ∧
      (∀ k type, (k, type) ∈ es.flatMap (fun e => typedPlaceholders e.sql) →
        ∃ (i : ℕ) (v : Value), k = 1 + i ∧ parameters[i]? = some v ∧
          ∃ tree ∈ trees, tree.Gives type v) ∧
      (∀ tree ∈ trees, ∀ type v, tree.Gives type v →
        ∃ i : ℕ, (1 + (i : Int), type) ∈ es.flatMap (fun e => typedPlaceholders e.sql) ∧
          parameters[i]? = some v) ∧
      ((∀ k type, (k, type) ∈ es.flatMap (fun e => typedPlaceholders e.sql) →
        ∃ (i : ℕ) (v : Value), k = 1 + i ∧ parameters[i]? = some v ∧ type.Holds v) ↔
        ∀ tree ∈ trees, tree.IsWithin) := by
  obtain ⟨trees, es, hfinal, hes, rfl, rfl⟩ := build_eq_ok h
  have kept := invariant_run registry strategy ops
  have validated : ∀ tree ∈ trees, tree.IsValidated := fun tree htree =>
    (kept.tree_of_finalize hfinal tree htree).validated
  obtain ⟨read, written⟩ := typed_of_emitAll (kept.hasPlainNames constructed hfinal) validated hes
  refine ⟨trees, es, trees_of_finalize hfinal, hes, rfl, rfl, read, written, ?_⟩
  simp only [SearchTree.isWithin_iff]
  constructor
  · intro holds tree htree type v gives
    obtain ⟨i, hk, hi⟩ := written tree htree type v gives
    -- The number of a placeholder leads to one parameter only, so it is this one that is held.
    obtain ⟨j, w, same, hj, held⟩ := holds _ type hk
    obtain rfl : i = j := by omega
    rw [hi] at hj
    cases hj
    exact held
  · intro within k type hk
    obtain ⟨i, v, number, hi, tree, htree, gives⟩ := read k type hk
    exact ⟨i, v, number, hi, within tree htree type v gives⟩

/-- Of two numbers and a text, the numbers are held. -/
theorem small_numbers_are_held :
    ∃ s sql parameters trees, ((new twoRelations .leftToRight).run twoSearches).1.build
        (.standard .paradedb true) = (s, .ok (sql, parameters)) ∧
      parameters.map Value.number? = [some (.int 5), some (.int 7), none] ∧
      s.trees = some trees ∧ ∀ tree ∈ trees, tree.IsWithin := by
  have outcome : (((new twoRelations .leftToRight).run twoSearches).1.build
      (.standard .paradedb true)).2.toOption.map (fun b => b.2.map Value.number?) =
      some [some (.int 5), some (.int 7), none] := by
    decide +kernel
  obtain ⟨s, sql, parameters, built, numbers⟩ := exists_build_of_outcome outcome
  obtain ⟨trees, es, htrees, -, -, -, read, -, held⟩ := typed_placeholders_hold_iff
    twoRelations .leftToRight twoSearches 100 50000 constructed_twoRelations built
  refine ⟨s, sql, parameters, trees, built, numbers, htrees, held.mp ?_⟩
  intro k type hk
  obtain ⟨i, v, number, hi, tree, -, gives⟩ := read k type hk
  refine ⟨i, v, number, hi, ?_⟩
  have given : (parameters.map Value.number?)[i]? = some v.number? := by
    rw [List.getElem?_map, hi, Option.map_some]
  rw [numbers] at given
  match i with
  | 0 =>
    obtain rfl := Value.number?_eq_some.mp (Option.some.inj given).symm
    exact gives.holds_int (by decide)
  | 1 =>
    obtain rfl := Value.number?_eq_some.mp (Option.some.inj given).symm
    exact gives.holds_int (by decide)
  | 2 => exact absurd (Option.some.inj given).symm gives.number?_ne_none
  | i + 3 => cases given

/-- Two to the 128th. -/
def pastSingle : Finite64 := ⟨false, 0x47f0000000000000, by decide⟩

theorem worth_pastSingle : pastSingle.worth = 2 ^ 128 := by
  have exponent : pastSingle.rank / Finite64.perBinade = 1151 := by decide
  have fraction : pastSingle.rank % Finite64.perBinade = 0 := by decide
  rw [Finite64.worth, if_neg (by decide), Finite64.magnitude, exponent, fraction]
  norm_num [Finite64.perBinade]

/-- Each number is just more than its type holds. -/
def largeSearch : List Operation :=
  let term := .term "f" (.int 9223372036854775808)
  [.selectFrom "a" none,
    .add "a" (.predicate (.boost term ⟨.real pastSingle, pastSingle, rfl⟩)) (.text "and"),
    .setOption "a" (.text "limit_rows") (.int 2147483648)]

/-- Each type of numbers is that of a parameter that it does not hold. -/
theorem large_numbers_are_bound :
    twoRelations.Constructed ∧
    ∃ s sql parameters, ((new twoRelations .leftToRight).run largeSearch).1.build
        (.standard .paradedb true) = (s, .ok (sql, parameters)) ∧
      sql = "SELECT * FROM i.search(query => paradedb.boost(factor => $1::real, query => " ++
        "paradedb.term(field => 'f', value => $2::bigint)), limit_rows => $3::integer) AS a" ∧
      typedPlaceholders sql = [(1, .real), (2, .bigint), (3, .integer)] ∧
      ∀ kt ∈ typedPlaceholders sql, ∃ (i : ℕ) (v : Value),
        kt.1 = 1 + i ∧ parameters[i]? = some v ∧ ¬ kt.2.Holds v := by
  refine ⟨constructed_twoRelations, ?_⟩
  have outcome : (((new twoRelations .leftToRight).run largeSearch).1.build
      (.standard .paradedb true)).2.toOption.map (fun b => (b.1, b.2.map Value.number?)) =
      some ("SELECT * FROM i.search(query => paradedb.boost(factor => $1::real, query => " ++
        "paradedb.term(field => 'f', value => $2::bigint)), limit_rows => $3::integer) AS a",
        [some (.real pastSingle), some (.int 9223372036854775808), some (.int 2147483648)]) := by
    decide +kernel
  have typed : typedPlaceholders
      ("SELECT * FROM i.search(query => paradedb.boost(factor => $1::real, query => " ++
        "paradedb.term(field => 'f', value => $2::bigint)), limit_rows => $3::integer) AS a") =
      [(1, .real), (2, .bigint), (3, .integer)] := by
    decide +kernel
  obtain ⟨s, sql, parameters, built, told⟩ := exists_build_of_outcome outcome
  obtain ⟨rfl, numbers⟩ := Prod.mk.inj told
  have parameter (i : ℕ) {n : Number} (hi : (parameters.map Value.number?)[i]? = some (some n)) :
      parameters[i]? = some n.toValue := by
    obtain ⟨v, hv, number⟩ := Option.map_eq_some_iff.mp (List.getElem?_map.symm.trans hi)
    rw [hv, Value.number?_eq_some.mp number]
  refine ⟨s, _, parameters, built, rfl, typed, ?_⟩
  rw [typed]
  simp only [List.forall_mem_cons]
  refine ⟨⟨0, _, rfl, parameter 0 (by rw [numbers]; rfl), ?_⟩,
    ⟨1, _, rfl, parameter 1 (by rw [numbers]; rfl), ?_⟩,
    ⟨2, _, rfl, parameter 2 (by rw [numbers]; rfl), ?_⟩, List.forall_mem_nil _⟩
  · rw [Number.toValue, NumericType.Holds, worth_pastSingle, maxSingle]
    norm_num
  · exact fun held => absurd held.2 (by decide)
  · exact fun held => absurd held.2 (by decide)

end Statement

end SearchSql
