import SearchSql.Proofs.Call.Cast
import SearchSql.Proofs.Call.Emission
import SearchSql.Proofs.Literal.Encoding

/-!
# Numbers in a call

Which numbers of a search are bound to a parameter of a numeric type, and to which type: those of
terms to `bigint`, those that are arguments to the type that is declared for the argument
(`SearchTree.Gives`). The casts in the text of the call are those of these numbers
(`SearchTree.typed_of_emit`).
-/

namespace SearchSql

/-! ## The slots of a call -/

namespace Script

variable {v : Value} {argument : Option Argument}

theorem slot_mem_named {name arrow : String} {value : Script} :
    .slot v argument ∈ named name arrow value ↔ .slot v argument ∈ value := by
  simp [named]

theorem slot_mem_commaSeparated {args : List Script} :
    .slot v argument ∈ commaSeparated args ↔ ∃ s ∈ args, .slot v argument ∈ s := by
  fun_induction commaSeparated args with
  | case1 => simp
  | case2 s => simp
  | case3 s rest _ ih => simp [ih]

theorem slot_mem_call {function : String} {args : List Script} :
    .slot v argument ∈ call function args ↔ ∃ s ∈ args, .slot v argument ∈ s := by
  simp [call, slot_mem_commaSeparated]

theorem slot_mem_leaf {style : Style} {function field : String} {args : List (String × Script)} :
    .slot v argument ∈ style.leaf function field args ↔
      ∃ arg ∈ args, .slot v argument ∈ arg.2 := by
  simp [Style.leaf, slot_mem_call, slot_mem_named]

end Script

/-- The value of an optional argument, if there is one. -/
def Argument.slots (argument : Argument) (given : Option Value) :
    List (Value × Option Argument) :=
  given.toList.map (·, some argument)

theorem Argument.mem_slots {argument : Argument} {given : Option Value} {v : Value}
    {a : Option Argument} :
    (v, a) ∈ argument.slots given ↔ given = some v ∧ a = some argument := by
  cases given with
  | none => simp [slots]
  | some w => simp [slots, eq_comm]

theorem Script.slot_mem_optional (style : Style) {argument : Argument} {given : Option Value}
    {v : Value} {a : Option Argument} :
    (∃ arg ∈ style.optional argument given, .slot v a ∈ arg.2) ↔
      (v, a) ∈ argument.slots given := by
  rw [Argument.mem_slots]
  cases given with
  | none => simp [Style.optional]
  | some w => simp [Style.optional, eq_comm]

def FuzzyOptions.slots (options : FuzzyOptions) : List (Value × Option Argument) :=
  Argument.distance.slots (options.distance.map fun d => .int d.val) ++
    Argument.transposeCostOne.slots (options.transposeCostOne.map .bool) ++
    Argument.prefixMatch.slots (options.prefixMatch.map .bool)

theorem Script.slot_mem_fuzzyArguments (style : Style) {options : FuzzyOptions} {v : Value}
    {a : Option Argument} :
    (∃ arg ∈ style.fuzzyArguments options, .slot v a ∈ arg.2) ↔ (v, a) ∈ options.slots := by
  simp only [Style.fuzzyArguments, FuzzyOptions.slots, List.mem_append, or_and_right, exists_or,
    slot_mem_optional]

/-- The values that a node is written with, its children aside, each with its argument. -/
def Predicate.ownSlots : Predicate Value → List (Value × Option Argument)
  | .parse query => [(.text query, none)]
  | .term _ v => [(v, none)]
  | .fuzzy _ v options => (.text v, none) :: options.slots
  | .phrase _ phrases slop =>
    (.list phrases, none) :: Argument.slop.slots (slop.map fun (n : ℕ) => .int n)
  | .range _ r => [(.range r, none)]
  | .boost _ factor => [(.real (.finite factor.value), some .factor)]
  | _ => []

/-- A whole number that is no argument is the value of a term. -/
theorem Predicate.int_mem_ownSlots {q : Predicate Value} {n : Int} :
    (.int n, none) ∈ q.ownSlots ↔ ∃ f, q = .term f (.int n) := by
  cases q <;> simp [ownSlots, FuzzyOptions.slots, Argument.mem_slots, eq_comm]

namespace Style

open Script

variable {style : Style} {v : Value} {argument : Option Argument}

theorem slot_mem_leafScript {p : Predicate Value} (h : p.children = []) (depth : ℕ) :
    .slot v argument ∈ style.script depth p ↔ (v, argument) ∈ p.ownSlots := by
  cases p with
  | boolean kind first rest => cases h
  | boost query factor => cases h
  | parse query => simp [script, slot_mem_call, Predicate.ownSlots]
  | term f w => simp [script, slot_mem_leaf, Predicate.ownSlots]
  | fuzzy f w options =>
    simp [script, slot_mem_leaf, Predicate.ownSlots, ← slot_mem_fuzzyArguments style]
  | phrase f phrases slop =>
    cases slop <;>
      simp [script, slot_mem_leaf, Predicate.ownSlots, ← slot_mem_optional style]
  | range f r => simp [script, slot_mem_leaf, Predicate.ownSlots]
  | present f => simp [script, slot_mem_leaf, Predicate.ownSlots]
  | foreign n => simp [script, Predicate.ownSlots]

/-- The slots of a predicate are those of its nodes. -/
theorem slot_mem_script (p : Predicate Value) (depth : ℕ) :
    .slot v argument ∈ style.script depth p ↔ ∃ q ∈ p.nodes, (v, argument) ∈ q.ownSlots := by
  induction p using Predicate.tree_induction generalizing depth with
  | leaf p h =>
    rw [slot_mem_leafScript h, Predicate.nodes_eq_cons, h, List.flatMap_nil]
    simp
  | boolean kind first rest ih =>
    have below : (∃ s ∈ style.scripts (depth + 1) (first :: rest), .slot v argument ∈ s) ↔
        ∃ q ∈ (first :: rest).flatMap Predicate.nodes, (v, argument) ∈ q.ownSlots := by
      rw [scripts_eq_map]
      constructor
      · rintro ⟨s, hs, hv⟩
        obtain ⟨c, hc, rfl⟩ := List.mem_map.mp hs
        obtain ⟨q, hq, own⟩ := (ih c hc (depth + 1)).mp hv
        exact ⟨q, List.mem_flatMap.mpr ⟨c, hc, hq⟩, own⟩
      · rintro ⟨q, hq, own⟩
        obtain ⟨c, hc, hq⟩ := List.mem_flatMap.mp hq
        exact ⟨_, List.mem_map_of_mem hc, (ih c hc (depth + 1)).mpr ⟨q, hq, own⟩⟩
    have written : .slot v argument ∈ style.script depth (.boolean kind first rest) ↔
        ∃ s ∈ style.scripts (depth + 1) (first :: rest), .slot v argument ∈ s := by
      simp [script, scripts, slot_mem_call, slot_mem_named, slot_mem_commaSeparated]
    rw [written, below, Predicate.nodes_eq_cons]
    simp [Predicate.ownSlots, Predicate.children]
  | boost query factor ih =>
    have written : .slot v argument ∈ style.script depth (.boost query factor) ↔
        (v, argument) ∈ (Predicate.boost query factor).ownSlots ∨
          .slot v argument ∈ style.script (depth + 1) query := by
      simp [script, slot_mem_call, slot_mem_named, Predicate.ownSlots]
    have nodes : (Predicate.boost query factor).nodes = .boost query factor :: query.nodes := by
      rw [Predicate.nodes_eq_cons, Predicate.children, List.flatMap_singleton]
    rw [written, ih, nodes, List.exists_mem_cons_iff]

/-- The slots of a search call: those of its predicate and those of its options. -/
theorem slot_mem_searchCall (tree : SearchTree) :
    .slot v argument ∈ style.searchCall tree ↔
      (∃ q ∈ tree.root.nodes, (v, argument) ∈ q.ownSlots) ∨
        ∃ o, tree.options.get? o = some v ∧ argument = some (.option o) := by
  have options : (∃ s ∈ optionArguments tree.options, .slot v argument ∈ s) ↔
      ∃ o, tree.options.get? o = some v ∧ argument = some (.option o) := by
    constructor
    · rintro ⟨s, hs, hv⟩
      obtain ⟨o, -, ho⟩ := List.mem_filterMap.mp hs
      obtain ⟨w, hw, rfl⟩ := Option.map_eq_some_iff.mp ho
      cases List.mem_singleton.mp (slot_mem_named.mp hv)
      exact ⟨o, hw, rfl⟩
    · rintro ⟨o, ho, rfl⟩
      have known : o ∈ SearchOption.all := by cases o <;> decide
      refine ⟨_, List.mem_filterMap.mpr ⟨o, known, Option.map_eq_some_iff.mpr ⟨v, ho, rfl⟩⟩, ?_⟩
      exact slot_mem_named.mpr List.mem_cons_self
  rw [searchCall, slot_mem_call, List.exists_mem_cons_iff, slot_mem_named, slot_mem_script, options]

end Style

/-! ## The numbers of a search -/

theorem Literal.numericType?_none {literal : Literal} {type : NumericType}
    (h : literal.numericType? none = some type) :
    ∃ n, literal = .integer n ∧ type = .bigint := by
  cases literal with
  | integer n => cases h; exact ⟨n, rfl, rfl⟩
  | range s type => cases type <;> cases h
  | _ => cases h

/-- A search has a number that is bound to a parameter of a numeric type. -/
inductive SearchTree.Gives (tree : SearchTree) : NumericType → Value → Prop where
  | term {f : String} {n : Int} (h : .term f (.int n) ∈ tree.root.nodes) :
      Gives tree .bigint (.int n)
  | distance {f s : String} {options : FuzzyOptions} {d : Fin 3}
      (h : .fuzzy f s options ∈ tree.root.nodes) (given : options.distance = some d) :
      Gives tree .integer (.int d.val)
  | slop {f : String} {phrases : List Value} {n : ℕ}
      (h : .phrase f phrases (some n) ∈ tree.root.nodes) : Gives tree .integer (.int n)
  | factor {query : Predicate Value} {factor : Factor}
      (h : .boost query factor ∈ tree.root.nodes) : Gives tree .real (.real (.finite factor.value))
  | option {o : SearchOption} {n : ℕ} (h : tree.options.get? o = some (.int n)) :
      Gives tree .integer (.int n)

namespace SearchTree

variable {tree : SearchTree} {type : NumericType} {v : Value}

/-- A value without an argument is bound as a number only if it is a whole number. -/
theorem eq_int_of_slot {literal : Literal} (encoded : v.encode = .ok literal)
    (numeric : literal.numericType? none = some type) :
    ∃ n, v = .int n ∧ literal = .integer n ∧ type = .bigint := by
  obtain ⟨n, rfl, rfl⟩ := Literal.numericType?_none numeric
  cases Value.encodes_of_encode encoded
  exact ⟨n, rfl, rfl, rfl⟩

theorem gives_of_ownSlot {q : Predicate Value} (hq : q ∈ tree.root.nodes)
    {argument : Option Argument} {literal : Literal} (own : (v, argument) ∈ q.ownSlots)
    (encoded : v.encode = .ok literal) (kind : literal.kind ≠ .boolean)
    (numeric : literal.numericType? argument = some type) : tree.Gives type literal.value := by
  cases argument with
  | none =>
    obtain ⟨n, rfl, rfl, rfl⟩ := eq_int_of_slot encoded numeric
    obtain ⟨f, rfl⟩ := Predicate.int_mem_ownSlots.mp own
    exact .term hq
  | some argument =>
    cases q with
    | fuzzy f s options =>
      simp only [Predicate.ownSlots, List.mem_cons, Prod.mk.injEq, reduceCtorEq, and_false,
        false_or, FuzzyOptions.slots, List.mem_append, Argument.mem_slots, Option.map_eq_some_iff]
        at own
      obtain (⟨⟨d, given, rfl⟩, same⟩ | ⟨⟨b, -, rfl⟩, -⟩) | ⟨⟨b, -, rfl⟩, -⟩ := own
      · cases same
        cases encoded
        cases numeric
        exact .distance hq given
      -- The two flags are truth values, which have no placeholders.
      · cases encoded
        exact absurd rfl kind
      · cases encoded
        exact absurd rfl kind
    | phrase f phrases slop =>
      simp only [Predicate.ownSlots, List.mem_cons, Prod.mk.injEq, reduceCtorEq, and_false,
        false_or, Argument.mem_slots, Option.map_eq_some_iff] at own
      obtain ⟨⟨n, rfl, rfl⟩, same⟩ := own
      cases same
      cases encoded
      cases numeric
      exact .slop hq
    | boost query factor =>
      cases List.mem_singleton.mp own
      cases encoded
      cases numeric
      exact .factor hq
    | parse query => cases List.mem_singleton.mp own
    | term f w => cases List.mem_singleton.mp own
    | range f r => cases List.mem_singleton.mp own
    | present f => cases own
    | boolean k first rest => cases own
    | foreign n => cases own

theorem gives_of_slot (validated : tree.IsValidated) {argument : Option Argument}
    {literal : Literal} (slot : .slot v argument ∈ Dialect.paradedb.style.searchCall tree)
    (encoded : v.encode = .ok literal) (kind : literal.kind ≠ .boolean)
    (numeric : literal.numericType? argument = some type) : tree.Gives type literal.value := by
  obtain ⟨q, hq, own⟩ | ⟨o, ho, rfl⟩ := (Style.slot_mem_searchCall tree).mp slot
  · exact gives_of_ownSlot hq own encoded kind numeric
  · have accepted := validated.options o v ho
    unfold SearchOption.accepts at accepted
    split at accepted
    · cases encoded
      exact absurd rfl kind
    · cases encoded
      cases numeric
      exact .option ho
    · cases encoded
      cases numeric
      exact .option ho
    · cases accepted

theorem Gives.exists_slot (validated : tree.IsValidated) (h : tree.Gives type v) :
    ∃ argument literal, .slot v argument ∈ Dialect.paradedb.style.searchCall tree ∧
      v.encode = .ok literal ∧ literal.kind ≠ .boolean ∧
      literal.numericType? argument = some type ∧ literal.value = v := by
  have inside {q : Predicate Value} {argument : Option Argument} (hq : q ∈ tree.root.nodes)
      (own : (v, argument) ∈ q.ownSlots) :
      .slot v argument ∈ Dialect.paradedb.style.searchCall tree :=
    (Style.slot_mem_searchCall tree).mpr (.inl ⟨q, hq, own⟩)
  cases h with
  | @term f n hq => exact ⟨none, .integer n, inside hq List.mem_cons_self, rfl, nofun, rfl, rfl⟩
  | @distance f s options d hq given =>
    have own : (Value.int d.val, some Argument.distance) ∈ options.slots := by
      rw [FuzzyOptions.slots, List.mem_append, List.mem_append]
      exact .inl (.inl (Argument.mem_slots.mpr ⟨by rw [given, Option.map_some], rfl⟩))
    exact ⟨some .distance, .integer d.val, inside hq (List.mem_cons_of_mem _ own), rfl, nofun, rfl,
      rfl⟩
  | @slop f phrases n hq =>
    exact ⟨some .slop, .integer n, inside hq (List.mem_cons_of_mem _ List.mem_cons_self), rfl,
      nofun, rfl, rfl⟩
  | @factor query factor hq =>
    exact ⟨some .factor, .float factor.value, inside hq List.mem_cons_self, rfl, nofun, rfl, rfl⟩
  | @option o n ho =>
    have slot := (@Style.slot_mem_searchCall Dialect.paradedb.style _ _ tree).mpr
      (.inr ⟨o, ho, rfl⟩)
    have accepted := validated.options o _ ho
    cases o with
    | stableSort => cases accepted
    | limitRows => exact ⟨_, .integer n, slot, rfl, nofun, rfl, rfl⟩
    | offsetRows => exact ⟨_, .integer n, slot, rfl, nofun, rfl, rfl⟩

/-- The casts in the text of a call are those of the numbers that the search has, each under the
number of its parameter. -/
theorem typed_of_emit (names : tree.HasPlainNames) (validated : tree.IsValidated)
    {maxDepth maxLength first : Int} {e : Expression}
    (he : tree.emit ⟨.paradedb, true, maxDepth, maxLength⟩ first = .ok e) :
    (∀ k type, (k, type) ∈ typedPlaceholders e.sql →
      ∃ (i : ℕ) (v : Value), k = first + i ∧ e.parameters[i]? = some v ∧ tree.Gives type v) ∧
    ∀ type v, tree.Gives type v →
      ∃ i : ℕ, (first + i, type) ∈ typedPlaceholders e.sql ∧ e.parameters[i]? = some v := by
  obtain ⟨t, ht, rfl⟩ := bound_of_emit he
  have typed : typedPlaceholders (t.bound Dialect.paradedb.style first) =
      Template.typedFrom first t.boundSlots :=
    Template.typedPlaceholders_bound (names.isPlain ht) (isChain_template ht) first
  have parameter {i : ℕ} {literal : Literal} {argument : Option Argument}
      (h : t.boundSlots[i]? = some (literal, argument)) :
      t.parameters[i]? = some literal.value := by
    rw [Template.parameters, Template.boundLiterals_eq, List.map_map, List.getElem?_map, h]
    rfl
  simp only [expression, typed, Template.mem_typedFrom]
  constructor
  · rintro _ type ⟨i, literal, argument, hi, rfl, numeric⟩
    obtain ⟨v, slot, encoded, kind⟩ :=
      (Script.mem_boundSlots ht).mp (List.mem_of_getElem? hi)
    exact ⟨i, _, rfl, parameter hi, gives_of_slot validated slot encoded kind numeric⟩
  · intro type v gives
    obtain ⟨argument, literal, slot, encoded, kind, numeric, rfl⟩ := gives.exists_slot validated
    obtain ⟨i, hi⟩ := List.mem_iff_getElem?.mp
      ((Script.mem_boundSlots ht).mpr ⟨_, slot, encoded, kind⟩)
    exact ⟨i, ⟨i, literal, argument, hi, rfl, numeric⟩, parameter hi⟩

end SearchTree

end SearchSql
