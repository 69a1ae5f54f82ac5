import Mathlib.Data.List.Forall2
import SearchSql.Proofs.Call.Emission

/-!
# Values stay out of the text

With placeholders, the text of a call shows of its values only what kinds they are of, and which
truth values there are (`emit_eq_of_alike`). Two trees that agree on that are emitted in lockstep:
after each step the texts are equal, and as many parameters are bound, so the next placeholder has
the same number, and the next limit is met or missed by both.
-/

namespace SearchSql

/-- Literals that the text of a call cannot tell apart. -/
structure Literal.Alike (l m : Literal) : Prop where
  kind : l.kind = m.kind
  sqlType : l.sqlType = m.sqlType
  boolean : l.kind = .boolean → l = m

theorem Literal.Alike.placeholder {l m : Literal} (h : l.Alike m) (style : Style) (number : Int)
    (argument : Option Argument) :
    style.placeholder number argument l = style.placeholder number argument m := by
  rw [Style.placeholder, Style.placeholder, h.sqlType]

def Value.Alike (v w : Value) : Prop :=
  ∃ l m, v.encode = .ok l ∧ w.encode = .ok m ∧ l.Alike m

theorem Value.alike_int (m n : Int) : (Value.int m).Alike (.int n) :=
  ⟨.integer m, .integer n, rfl, rfl, rfl, rfl, nofun⟩

theorem Value.alike_finite (x y : Finite64) :
    (Value.real (.finite x)).Alike (.real (.finite y)) :=
  ⟨.float x, .float y, rfl, rfl, rfl, rfl, nofun⟩

theorem Value.alike_bool (b : Bool) : (Value.bool b).Alike (.bool b) :=
  ⟨.boolean b, .boolean b, rfl, rfl, rfl, rfl, fun _ => rfl⟩

/-- The same options are given, and the truth values among them are the same. -/
structure FuzzyOptions.Alike (options options' : FuzzyOptions) : Prop where
  distance : options.distance.isSome = options'.distance.isSome
  transposeCostOne : options.transposeCostOne = options'.transposeCostOne
  prefixMatch : options.prefixMatch = options'.prefixMatch

/-- Predicates of one shape over the same fields, whose values are alike. -/
inductive Predicate.Alike : Predicate Value → Predicate Value → Prop where
  | parse {query query' : String} (h : (Value.text query).Alike (.text query')) :
      Alike (.parse query) (.parse query')
  | term (field : String) {v w : Value} (h : v.Alike w) : Alike (.term field v) (.term field w)
  | fuzzy (field : String) {value value' : String} {options options' : FuzzyOptions}
      (h : (Value.text value).Alike (.text value')) (given : options.Alike options') :
      Alike (.fuzzy field value options) (.fuzzy field value' options')
  | phrase (field : String) {phrases phrases' : List Value} {slop slop' : Option ℕ}
      (h : (Value.tuple phrases).Alike (.tuple phrases')) (given : slop.isSome = slop'.isSome) :
      Alike (.phrase field phrases slop) (.phrase field phrases' slop')
  | range (field : String) {r r' : SearchRange Value} (h : (Value.range r).Alike (.range r')) :
      Alike (.range field r) (.range field r')
  | present (field : String) : Alike (.present field) (.present field)
  | boolean (kind : Kind) {first first' : Predicate Value} {rest rest' : List (Predicate Value)}
      (hfirst : Alike first first') (hrest : List.Forall₂ Alike rest rest') :
      Alike (.boolean kind first rest) (.boolean kind first' rest')
  | boost {query query' : Predicate Value} (factor factor' : Factor) (h : Alike query query') :
      Alike (.boost query factor) (.boost query' factor')
  | foreign (typeName typeName' : String) : Alike (.foreign typeName) (.foreign typeName')

structure SearchTree.Alike (t u : SearchTree) : Prop where
  binding : t.binding = u.binding
  root : t.root.Alike u.root
  options : ∀ o, Option.Rel Value.Alike (t.options.get? o) (u.options.get? o)

/-! ## Scripts -/

inductive Step.Alike : Step → Step → Prop where
  | text (s : String) : Alike (.text s) (.text s)
  | enter (depth : ℕ) : Alike (.enter depth) (.enter depth)
  | slot {v w : Value} (argument : Option Argument) (h : v.Alike w) :
      Alike (.slot v argument) (.slot w argument)
  | unsupported (typeName typeName' : String) :
    Alike (.unsupported typeName) (.unsupported typeName')

def Script.Alike : Script → Script → Prop := List.Forall₂ Step.Alike

namespace Script.Alike

variable {script script' rest rest' : Script}

theorem nil : Alike [] [] := List.Forall₂.nil

theorem text (s : String) (h : Alike script script') :
    Alike (.text s :: script) (.text s :: script') := List.Forall₂.cons (.text s) h

theorem enter (depth : ℕ) (h : Alike script script') :
    Alike (.enter depth :: script) (.enter depth :: script') := List.Forall₂.cons (.enter depth) h

theorem slot {v w : Value} (argument : Option Argument) (h : v.Alike w) :
    Alike [.slot v argument] [.slot w argument] := List.Forall₂.cons (.slot argument h) .nil

theorem append (h : Alike script script') (hrest : Alike rest rest') :
    Alike (script ++ rest) (script' ++ rest') := List.rel_append h hrest

theorem commaSeparated {args args' : List Script} (h : List.Forall₂ Alike args args') :
    Alike (commaSeparated args) (commaSeparated args') := by
  induction h with
  | nil => exact .nil
  | cons first later ih =>
    cases later with
    | nil => exact first
    | cons second more => exact first.append (ih.text ", ")

theorem named (name arrow : String) (h : Alike script script') :
    Alike (named name arrow script) (named name arrow script') := h.text _

theorem call (function : String) {args args' : List Script} (h : List.Forall₂ Alike args args') :
    Alike (call function args) (call function args') :=
  ((commaSeparated h).append (nil.text ")")).text _

end Script.Alike

namespace Style

variable {style : Style}

/-- Arguments of the same names with scripts that are alike. -/
def ArgumentsAlike : List (String × Script) → List (String × Script) → Prop :=
  List.Forall₂ fun arg arg' => arg.1 = arg'.1 ∧ arg.2.Alike arg'.2

theorem alike_leaf (function field : String) {args args' : List (String × Script)}
    (h : ArgumentsAlike args args') :
    (style.leaf function field args).Alike (style.leaf function field args') := by
  have each : List.Forall₂ Script.Alike
      (args.map fun arg => Script.named arg.1 style.leafArrow arg.2)
      (args'.map fun arg => Script.named arg.1 style.leafArrow arg.2) := by
    rw [List.forall₂_map_left_iff, List.forall₂_map_right_iff]
    refine h.imp ?_
    rintro ⟨name, value⟩ ⟨name', value'⟩ ⟨rfl, values⟩
    exact values.named name style.leafArrow
  exact .call _ (.cons ((Script.Alike.nil.text _).named "field" style.leafArrow) each)

theorem alike_optional (argument : Argument) {given given' : Option Value}
    (h : Option.Rel Value.Alike given given') :
    ArgumentsAlike (style.optional argument given) (style.optional argument given') := by
  cases h with
  | none => exact .nil
  | some h => exact .cons ⟨rfl, .slot _ h⟩ .nil

/-- What is given on both sides is alike, whatever it is. -/
theorem alike_given (argument : Argument) {α : Type} {f : α → Value}
    (h : ∀ a b, (f a).Alike (f b)) {given given' : Option α}
    (same : given.isSome = given'.isSome) :
    ArgumentsAlike (style.optional argument (given.map f))
      (style.optional argument (given'.map f)) := by
  apply alike_optional
  cases given with
  | none =>
    cases given' with
    | none => exact .none
    | some b => cases same
  | some a =>
    cases given' with
    | none => cases same
    | some b => exact .some (h a b)

theorem alike_slop {slop slop' : Option ℕ} (same : slop.isSome = slop'.isSome) :
    ArgumentsAlike (style.optional .slop (slop.map fun n => .int n))
      (style.optional .slop (slop'.map fun n => .int n)) := by
  cases slop with
  | none =>
    cases slop' with
    | none => exact .nil
    | some n => cases same
  | some m =>
    cases slop' with
    | none => cases same
    | some n => exact alike_optional .slop (.some (Value.alike_int m n))

theorem alike_flag (argument : Argument) (given : Option Bool) :
    ArgumentsAlike (style.optional argument (given.map .bool))
      (style.optional argument (given.map .bool)) := by
  apply alike_optional
  cases given with
  | none => exact .none
  | some b => exact .some (Value.alike_bool b)

theorem alike_fuzzyArguments {options options' : FuzzyOptions} (h : options.Alike options') :
    ArgumentsAlike (style.fuzzyArguments options) (style.fuzzyArguments options') := by
  rw [fuzzyArguments, fuzzyArguments, h.transposeCostOne, h.prefixMatch]
  refine List.rel_append (List.rel_append ?_ ?_) ?_
  · exact alike_given .distance (fun d e => Value.alike_int d.val e.val) h.distance
  · exact alike_flag .transposeCostOne _
  · exact alike_flag .prefixMatch _

theorem alike_scripts {ps qs : List (Predicate Value)} (h : List.Forall₂ Predicate.Alike ps qs)
    (depth : ℕ)
    (each : ∀ p ∈ ps, ∀ {q}, p.Alike q → (style.script depth p).Alike (style.script depth q)) :
    List.Forall₂ Script.Alike (style.scripts depth ps) (style.scripts depth qs) := by
  induction h with
  | nil => exact .nil
  | @cons p q ps qs first _ ih =>
    have later := ih fun p' hp' => each p' (List.mem_cons_of_mem p hp')
    exact .cons (each p List.mem_cons_self first) later

theorem alike_leaf_script {p q : Predicate Value} (leaf : p.children = []) (h : p.Alike q)
    (depth : ℕ) : (style.script depth p).Alike (style.script depth q) := by
  cases h with
  | parse h => exact .enter depth (.call _ (.cons (.slot none h) .nil))
  | term field h =>
    exact .enter depth (alike_leaf _ field (.cons ⟨rfl, .slot none h⟩ .nil))
  | fuzzy field h given =>
    have more := @alike_fuzzyArguments style _ _ given
    exact .enter depth (alike_leaf _ field (.cons ⟨rfl, .slot none h⟩ more))
  | @phrase field phrases phrases' slop slop' h given =>
    have items : (Value.list phrases).Alike (.list phrases') := h
    exact .enter depth (alike_leaf _ field (.cons ⟨rfl, .slot none items⟩ (alike_slop given)))
  | range field h =>
    exact .enter depth (alike_leaf _ field (.cons ⟨rfl, .slot none h⟩ .nil))
  | present field => exact .enter depth (alike_leaf _ field .nil)
  | boolean => cases leaf
  | boost => cases leaf
  | foreign n n' => exact .enter depth (.cons (.unsupported n n') .nil)

theorem alike_script {p q : Predicate Value} (h : p.Alike q) (depth : ℕ) :
    (style.script depth p).Alike (style.script depth q) := by
  induction p using Predicate.tree_induction generalizing q depth with
  | leaf p leaf => exact alike_leaf_script leaf h depth
  | boolean kind first rest ih =>
    cases h with
    | boolean _ hfirst hrest =>
      have children := alike_scripts (.cons hfirst hrest) (depth + 1)
        fun p hp _ hpq => ih p hp hpq (depth + 1)
      have row := (Script.Alike.commaSeparated children).append
        (Script.Alike.nil.text style.arrayClose)
      exact .enter depth
        (.call _ (.cons ((row.text style.arrayOpen).named kind.name " => ") .nil))
  | boost query factor ih =>
    cases h with
    | boost _ factor' h =>
      have number := Script.Alike.slot (some .factor)
        (Value.alike_finite factor.value factor'.value)
      have below := ih h (depth + 1)
      exact .enter depth (.call _ (.cons (number.named "factor" " => ")
        (.cons (below.named "query" " => ") .nil)))

theorem alike_optionArguments {options options' : Table SearchOption Value}
    (h : ∀ o, Option.Rel Value.Alike (options.get? o) (options'.get? o)) :
    List.Forall₂ Script.Alike (optionArguments options) (optionArguments options') := by
  unfold optionArguments
  induction SearchOption.all with
  | nil => exact .nil
  | cons o rest ih =>
    have row := h o
    rw [List.filterMap_cons, List.filterMap_cons]
    generalize options.get? o = given at row ⊢
    generalize options'.get? o = given' at row ⊢
    cases row with
    | none => exact ih
    | some values => exact .cons ((Script.Alike.slot _ values).named o.name " => ") ih

theorem alike_searchCall {t u : SearchTree} (h : t.Alike u) :
    (style.searchCall t).Alike (style.searchCall u) := by
  have root := (@alike_script style _ _ h.root 1).named "query" " => "
  rw [searchCall, searchCall, h.binding]
  exact .call _ (.cons root (alike_optionArguments h.options))

end Style

/-! ## Emission -/

/-- Computations that both succeed with related results, or fail in one way. -/
inductive Agree {α β : Type} (R : α → β → Prop) :
    Except EmissionError α → Except EmissionError β → Prop where
  | ok {a : α} {b : β} (h : R a b) : Agree R (.ok a) (.ok b)
  | error {e e' : EmissionError} (h : e.report.category = e'.report.category) :
      Agree R (.error e) (.error e')

/-- Where success is the same, only the way of failing counts. -/
theorem Agree.eq {α β γ : Type} {f : α → γ} {g : β → γ} {x : Except EmissionError α}
    {y : Except EmissionError β} (h : Agree (fun a b => f a = g b) x y) :
    (x.map f).mapError (·.report.category) = (y.map g).mapError (·.report.category) := by
  cases h with
  | ok h => exact congrArg Except.ok h
  | error h => exact congrArg Except.error h

theorem Agree.bind {α β γ δ : Type} {R : α → β → Prop} {S : γ → δ → Prop}
    {x : Except EmissionError α} {y : Except EmissionError β} {f : α → Except EmissionError γ}
    {g : β → Except EmissionError δ} (h : Agree R x y) (hfg : ∀ a b, R a b → Agree S (f a) (g b)) :
    Agree S (x.bind f) (y.bind g) := by
  cases h with
  | ok h => exact hfg _ _ h
  | error h => exact .error h

namespace Draft

/-- Equal texts, and as many parameters. -/
structure Alike (d d' : Draft) : Prop where
  text : d.text = d'.text
  parameters : d.parameters.length = d'.parameters.length

variable {settings : Settings} {first : Int} {d d' : Draft}

theorem Alike.checkLimits (h : d.Alike d') (depth : ℕ) :
    d.checkLimits settings depth = d'.checkLimits settings depth := by
  rw [Draft.checkLimits, Draft.checkLimits, h.text]

/-- Only truth values are written, and these are equal. -/
theorem Alike.fill (h : d.Alike d') (parameterize : settings.parameterize = true)
    (argument : Option Argument) {l m : Literal} (hlm : l.Alike m) :
    (d.fill settings first argument l).Alike (d'.fill settings first argument m) := by
  by_cases truth : l.kind = .boolean
  · have same : l = m := hlm.boolean truth
    have written : (settings.parameterize && m.kind != .boolean) = false := by
      simp [← hlm.kind, truth]
    rw [Draft.fill, Draft.fill, same, written]
    constructor
    · simp [write, h.text]
    · exact h.parameters
  · have bound : (settings.parameterize && l.kind != .boolean) = true := by
      simp [parameterize, truth]
    have bound' : (settings.parameterize && m.kind != .boolean) = true := by
      simp [parameterize, ← hlm.kind, truth]
    rw [Draft.fill, Draft.fill, if_pos bound, if_pos bound']
    constructor
    · simp [writeParameter, h.text, h.parameters, hlm.placeholder]
    · simp [writeParameter, h.parameters]

theorem Alike.play (h : d.Alike d') (parameterize : settings.parameterize = true)
    {step step' : Step} (hstep : step.Alike step') :
    Agree Alike (d.play settings first step) (d'.play settings first step') := by
  cases hstep with
  | text s =>
    refine .ok ⟨?_, h.parameters⟩
    exact congrArg (· ++ s) h.text
  | enter depth =>
    rw [Draft.play, Draft.play, h.checkLimits]
    cases d'.checkLimits settings depth with
    | ok _ => exact .ok h
    | error e => exact .error rfl
  | slot argument values =>
    obtain ⟨l, m, hl, hm, hlm⟩ := values
    rw [Draft.play, Draft.play, hl, hm]
    exact .ok (h.fill parameterize argument hlm)
  | unsupported n n' => exact .error rfl

theorem Alike.run (h : d.Alike d') (parameterize : settings.parameterize = true)
    {script script' : Script} (hscript : script.Alike script') :
    Agree Alike (script.foldlM (Draft.play settings first) d)
      (script'.foldlM (Draft.play settings first) d') := by
  induction hscript generalizing d d' with
  | nil => exact .ok h
  | cons hstep _ ih =>
    rw [List.foldlM_cons, List.foldlM_cons]
    exact (h.play parameterize hstep).bind fun _ _ => ih

end Draft

namespace SearchTree

theorem agree_finish {t u : SearchTree} {settings : Settings} {d d' : Draft} (h : d.Alike d') :
    Agree (fun e e' => e.sql = e'.sql) (t.finish settings d) (u.finish settings d') := by
  rw [finish, finish, h.checkLimits]
  cases d'.checkLimits settings 0 with
  | ok _ => exact .ok h.text
  | error e => exact .error rfl

/-- Trees that are alike are emitted with the same SQL, or fail in the same way. -/
theorem emit_eq_of_alike {t u : SearchTree} (h : t.Alike u) (dialect : Dialect)
    (maxDepth maxLength first : Int) :
    ((t.emit ⟨dialect, true, maxDepth, maxLength⟩ first).map (·.sql)).mapError
        (·.report.category) =
      ((u.emit ⟨dialect, true, maxDepth, maxLength⟩ first).map (·.sql)).mapError
        (·.report.category) := by
  apply Agree.eq
  rw [emit_eq, emit_eq]
  have start : Draft.empty.Alike Draft.empty := ⟨rfl, rfl⟩
  exact (start.run rfl (Style.alike_searchCall h)).bind fun _ _ => agree_finish

/-- The search of `fuzzySearch` for something else, and less closely. -/
def otherSearch : SearchTree where
  binding := fuzzySearch.binding
  root := .fuzzy "a" "'); --" ⟨some (Fin.last 2), none, some true⟩
  options := [(.limitRows, .int 99)]

theorem emit_otherSearch_eq :
    ((fuzzySearch.emit (.standard .paradedb true) 7).map (·.sql)).mapError (·.report.category) =
      ((otherSearch.emit (.standard .paradedb true) 7).map (·.sql)).mapError
        (·.report.category) := by
  have root : fuzzySearch.root.Alike otherSearch.root :=
    .fuzzy "a" ⟨.string "g$7", .string "'); --", rfl, rfl, rfl, rfl, nofun⟩ ⟨rfl, rfl, rfl⟩
  have options : ∀ o, Option.Rel Value.Alike (fuzzySearch.options.get? o)
      (otherSearch.options.get? o) := by
    intro o
    cases o with
    | limitRows => exact .some (Value.alike_int 3 99)
    | offsetRows => exact .none
    | stableSort => exact .none
  have alike : fuzzySearch.Alike otherSearch := ⟨rfl, root, options⟩
  exact emit_eq_of_alike alike .paradedb 100 50000 7

end SearchTree

end SearchSql
