import SearchSql.Proofs.Call.Limits
import SearchSql.Proofs.Call.Scribe

/-!
# Outlines

What a search call says with placeholders, in no dialect: which functions are called with which
fields, which argument has which value or the number of which placeholder. The dialects write one
outline, each in its own spelling, and bind the same parameters (`dialects_share_outline`).
-/

namespace SearchSql

/-- What stands in a call for a value: a truth value, or the number under which a literal is bound. -/
inductive Filling where
  | truth (b : Bool)
  | bound (number : Int) (literal : Literal)
  deriving DecidableEq

/-- The arguments of leaves, the field aside. -/
inductive LeafArgument where
  | value
  | phrases
  | range
  | optional (argument : Argument)

/-- A predicate of a call, whose arguments are in their order. -/
inductive Outline where
  | parse (query : Filling)
  | leaf (function field : String) (arguments : List (LeafArgument × Filling))
  | boolean (kind : Kind) (first : Outline) (rest : List Outline)
  | boost (factor : Filling) (query : Outline)

structure CallOutline where
  index : String
  root : Outline
  options : List (SearchOption × Filling)

/-! ## Outlines of trees -/

/-- What stands for a value where `k` is the next number, and the number that is next then. -/
def Value.fill? (v : Value) (k : Int) : Option (Filling × Int) :=
  match v.encode with
  | .ok (.boolean b) => some (.truth b, k)
  | .ok literal => some (.bound k literal, k + 1)
  | .error _ => none

def Filling.ofEach? {β : Type} : List (β × Value) → Int → Option (List (β × Filling) × Int)
  | [], k => some ([], k)
  | (key, v) :: rest, k => do
    let (filling, k) ← v.fill? k
    let (fillings, k) ← ofEach? rest k
    return ((key, filling) :: fillings, k)

def Outline.ofLeaf? (function field : String) (arguments : List (LeafArgument × Value)) (k : Int) :
    Option (Outline × Int) := do
  let (fillings, k) ← Filling.ofEach? arguments k
  return (.leaf function field fillings, k)

/-- An optional argument, if there is a value for it. -/
def LeafArgument.given (argument : Argument) (v? : Option Value) : List (LeafArgument × Value) :=
  v?.toList.map fun v => (.optional argument, v)

def FuzzyOptions.given (options : FuzzyOptions) : List (LeafArgument × Value) :=
  LeafArgument.given .distance (options.distance.map fun d => .int d.val) ++
    LeafArgument.given .transposeCostOne (options.transposeCostOne.map .bool) ++
    LeafArgument.given .prefixMatch (options.prefixMatch.map .bool)

namespace Predicate

mutual

/-- The numbers are given out from left to right. There is no outcome if a value is no literal or a
node cannot be written. -/
def outline? : Predicate Value → Int → Option (Outline × Int)
  | .parse query, k => do
    let (filling, k) ← Value.fill? (.text query) k
    return (.parse filling, k)
  | .term field v, k => Outline.ofLeaf? "term" field [(.value, v)] k
  | .fuzzy field v options, k =>
    Outline.ofLeaf? "fuzzy_term" field ((.value, .text v) :: options.given) k
  | .phrase field phrases slop, k =>
    Outline.ofLeaf? "phrase" field
      ((.phrases, .list phrases) :: LeafArgument.given .slop (slop.map fun n => .int n)) k
  | .range field r, k => Outline.ofLeaf? "range" field [(.range, .range r)] k
  | .present field, k => Outline.ofLeaf? "exists" field [] k
  | .boolean kind first rest, k => do
    let (first, k) ← outline? first k
    let (rest, k) ← outlines? rest k
    return (.boolean kind first rest, k)
  | .boost query factor, k => do
    let (filling, k) ← Value.fill? (.real (.finite factor.value)) k
    let (query, k) ← outline? query k
    return (.boost filling query, k)
  | .foreign _, _ => none

def outlines? : List (Predicate Value) → Int → Option (List Outline × Int)
  | [], k => some ([], k)
  | p :: ps, k => do
    let (o, k) ← outline? p k
    let (os, k) ← outlines? ps k
    return (o :: os, k)

end

end Predicate

/-- The options that are set, in the order in which a call lists them. -/
def SearchTree.givenOptions (tree : SearchTree) : List (SearchOption × Value) :=
  SearchOption.all.filterMap fun o => (tree.options.get? o).map fun v => (o, v)

/-- The outline of the call whose placeholders are numbered from `first` on. -/
def SearchTree.outline? (tree : SearchTree) (first : Int) : Option CallOutline := do
  let (root, k) ← tree.root.outline? first
  let (options, _) ← Filling.ofEach? tree.givenOptions k
  return ⟨tree.binding.index.name, root, options⟩

/-! ## Outlines in a dialect -/

def Filling.text (style : Style) (argument : Option Argument) : Filling → String
  | .truth b => if b then "true" else "false"
  | .bound number literal => style.placeholder number argument literal

def Filling.bound? : Filling → Option (Int × Literal)
  | .truth _ => none
  | .bound number literal => some (number, literal)

namespace LeafArgument

def name (style : Style) : LeafArgument → String
  | .value => "value"
  | .phrases => "phrases"
  | .range => "range"
  | .optional argument => style.argumentName argument

def argument? : LeafArgument → Option Argument
  | .optional argument => some argument
  | _ => none

end LeafArgument

def callText (function : String) (arguments : List String) : String :=
  function ++ "(" ++ String.intercalate ", " arguments ++ ")"

namespace Outline

mutual

/-- The text of a predicate in the spellings of a dialect. -/
def text (style : Style) : Outline → String
  | .parse query => callText (style.namespaceText ++ "parse") [query.text style none]
  | .leaf function field arguments =>
    callText (style.namespaceText ++ function)
      (("field" ++ style.leafArrow ++ Sql.quote field) ::
        arguments.map fun (a, filling) =>
          a.name style ++ style.leafArrow ++ filling.text style a.argument?)
  | .boolean kind first rest =>
    callText (style.namespaceText ++ "boolean")
      [kind.name ++ " => " ++ (style.arrayOpen ++
        String.intercalate ", " (text style first :: texts style rest) ++ style.arrayClose)]
  | .boost factor query =>
    callText (style.namespaceText ++ "boost")
      ["factor" ++ " => " ++ factor.text style (some .factor), "query" ++ " => " ++ text style query]

def texts (style : Style) : List Outline → List String
  | [] => []
  | o :: os => text style o :: texts style os

end

mutual

/-- What stands for the values, from left to right. -/
def fillings : Outline → List Filling
  | .parse query => [query]
  | .leaf _ _ arguments => arguments.map Prod.snd
  | .boolean _ first rest => fillings first ++ allFillings rest
  | .boost factor query => factor :: fillings query

def allFillings : List Outline → List Filling
  | [] => []
  | o :: os => fillings o ++ allFillings os

end

end Outline

namespace CallOutline

def text (style : Style) (call : CallOutline) : String :=
  callText (call.index ++ ".search")
    (("query" ++ " => " ++ call.root.text style) ::
      call.options.map fun (o, filling) =>
        o.name ++ " => " ++ filling.text style (some (.option o)))

def fillings (call : CallOutline) : List Filling :=
  call.root.fillings ++ call.options.map Prod.snd

/-- The numbers of the placeholders from left to right, with the literals that they stand for. -/
def bounds (call : CallOutline) : List (Int × Literal) := call.fillings.filterMap Filling.bound?

end CallOutline

/-! ## What scripts show -/

/-- With placeholders from `k` on, a script comes to a text in which these fillings stand, and `k'` is
the next number then. -/
structure Script.Shows (style : Style) (script : Script) (k : Int) (text : String)
    (fillings : List Filling) (k' : Int) : Prop where
  template : ∃ t, script.template? = some t ∧ t.bound style k = text ∧
    t.boundLiterals = (fillings.filterMap Filling.bound?).map Prod.snd
  numbers : (fillings.filterMap Filling.bound?).map Prod.fst =
    block k (fillings.filterMap Filling.bound?).length
  next : k' = k + (fillings.filterMap Filling.bound?).length

namespace Script

variable {style : Style} {k k' k'' : Int}

theorem template_append {s s' : Script} {t t' : Template} (h : s.template? = some t)
    (h' : s'.template? = some t') : template? (s ++ s') = some (t ++ t') := by
  induction s, t, h using template_induction with
  | nil => exact h'
  | text s rest t _ ih => simp [template?, ih]
  | enter d rest t _ ih => exact ih
  | slot v argument literal rest t hv _ ih => simp [template?, hv, ih]

theorem boundLiterals_append (t u : Template) :
    Template.boundLiterals (t ++ u) = t.boundLiterals ++ u.boundLiterals := by
  induction t with
  | nil => rfl
  | cons piece t ih =>
    cases piece with
    | text s => exact ih
    | slot literal argument =>
      rw [List.cons_append, Template.boundLiterals, Template.boundLiterals, ih]
      split <;> rfl

theorem shows_nil : Shows style [] k "" [] k :=
  ⟨⟨[], rfl, rfl, rfl⟩, rfl, (Int.add_zero k).symm⟩

theorem shows_text (s : String) : Shows style [.text s] k s [] k :=
  ⟨⟨[.text s], rfl, String.append_empty .., rfl⟩, rfl, (Int.add_zero k).symm⟩

theorem Shows.enter {s : Script} {text : String} {fillings : List Filling} (d : ℕ)
    (h : Shows style s k text fillings k') : Shows style (.enter d :: s) k text fillings k' :=
  ⟨h.template, h.numbers, h.next⟩

theorem Shows.append {s s' : Script} {text text' : String} {fillings fillings' : List Filling}
    (h : Shows style s k text fillings k') (h' : Shows style s' k' text' fillings' k'') :
    Shows style (s ++ s') k (text ++ text') (fillings ++ fillings') k'' := by
  obtain ⟨t, ht, rfl, literals⟩ := h.template
  obtain ⟨t', ht', rfl, literals'⟩ := h'.template
  have count : k' = k + t.boundLiterals.length := by
    rw [literals, List.length_map]
    exact h.next
  refine ⟨⟨t ++ t', template_append ht ht', ?_, ?_⟩, ?_, ?_⟩
  · rw [Template.bound_append, count]
  · rw [boundLiterals_append, literals, literals', List.filterMap_append, List.map_append]
  · rw [List.filterMap_append, List.map_append, h.numbers, h'.numbers, List.length_append,
      block_add, ← h.next]
  · rw [h'.next, h.next, List.filterMap_append, List.length_append, Int.natCast_add, Int.add_assoc]

theorem shows_slot (style : Style) {v : Value} {filling : Filling} (h : v.fill? k = some (filling, k'))
    (argument : Option Argument) :
    Shows style [.slot v argument] k (filling.text style argument) [filling] k' := by
  unfold Value.fill? at h
  cases encoded : v.encode with
  | error x =>
    rw [encoded] at h
    cases h
  | ok literal =>
    have template : template? [.slot v argument] = some [.slot literal argument] := by
      rw [template?, encoded]
      rfl
    rw [encoded] at h
    cases literal with
    | boolean b =>
      cases h
      exact ⟨⟨_, template, String.append_empty .., rfl⟩, rfl, (Int.add_zero k).symm⟩
    | _ =>
      cases h
      have number : [k] = block k 1 := congrArg (· :: []) (Int.add_zero k).symm
      exact ⟨⟨_, template, String.append_empty .., rfl⟩, number, rfl⟩

/-! ## Calls -/

theorem Shows.named {s : Script} {text : String} {fillings : List Filling} (name arrow : String)
    (h : Shows style s k text fillings k') :
    Shows style (named name arrow s) k (name ++ arrow ++ text) fillings k' :=
  (shows_text (name ++ arrow)).append h

/-- The same of scripts one after the other. -/
inductive ShowsEach (style : Style) :
    List Script → Int → List String → List Filling → Int → Prop where
  | nil {k : Int} : ShowsEach style [] k [] [] k
  | cons {s : Script} {ss : List Script} {k k' k'' : Int} {text : String} {texts : List String}
      {fillings fillings' : List Filling} (h : Shows style s k text fillings k')
      (hs : ShowsEach style ss k' texts fillings' k'') :
      ShowsEach style (s :: ss) k (text :: texts) (fillings ++ fillings') k''

theorem ShowsEach.commaSeparated {ss : List Script} {texts : List String} {fillings : List Filling}
    (h : ShowsEach style ss k texts fillings k') :
    Shows style (commaSeparated ss) k (String.intercalate ", " texts) fillings k' := by
  induction h with
  | nil => exact shows_nil
  | @cons s ss k k' k'' text texts fillings fillings' h hs ih =>
    cases hs with
    | nil =>
      rw [List.append_nil, String.intercalate_singleton]
      exact h
    | cons _ _ =>
      rw [String.intercalate_cons_cons, String.append_assoc]
      exact h.append ((shows_text ", ").append ih)

theorem ShowsEach.call {ss : List Script} {texts : List String} {fillings : List Filling}
    (function : String) (h : ShowsEach style ss k texts fillings k') :
    Shows style (call function ss) k (callText function texts) fillings k' := by
  have inside := (shows_text (function ++ "(")).append (h.commaSeparated.append (shows_text ")"))
  rw [List.append_nil, ← String.append_assoc] at inside
  exact inside

end Script

open Script

variable {style : Style} {k k' : Int}

theorem Value.IsLiteral.exists_fill {v : Value} (h : v.IsLiteral) (k : Int) :
    ∃ filling k', v.fill? k = some (filling, k') := by
  obtain ⟨literal, encoded⟩ := h
  unfold fill?
  rw [encoded]
  cases literal <;> exact ⟨_, _, rfl⟩

namespace Filling

variable {β : Type}

theorem exists_ofEach {values : List (β × Value)} (h : ∀ kv ∈ values, kv.2.IsLiteral) (k : Int) :
    ∃ fillings k', ofEach? values k = some (fillings, k') := by
  induction values generalizing k with
  | nil => exact ⟨[], k, rfl⟩
  | cons kv values ih =>
    obtain ⟨here, later⟩ := List.forall_mem_cons.mp h
    obtain ⟨filling, k₁, filled⟩ := here.exists_fill k
    obtain ⟨fillings, k₂, rest⟩ := ih later k₁
    refine ⟨(kv.1, filling) :: fillings, k₂, ?_⟩
    simp [ofEach?, filled, rest]

/-- Arguments show what stands for their values. -/
theorem shows_ofEach (style : Style) {values : List (β × Value)}
    {fillings : List (β × Filling)} (h : ofEach? values k = some (fillings, k')) (arrow : String)
    (name : β → String) (argument? : β → Option Argument) :
    ShowsEach style
      (values.map fun kv => named (name kv.1) arrow [.slot kv.2 (argument? kv.1)]) k
      (fillings.map fun kf => name kf.1 ++ arrow ++ kf.2.text style (argument? kf.1))
      (fillings.map Prod.snd) k' := by
  induction values generalizing k fillings with
  | nil =>
    cases h
    exact .nil
  | cons kv values ih =>
    obtain ⟨⟨filling, k₁⟩, filled, h⟩ := Option.bind_eq_some_iff.mp h
    obtain ⟨⟨rest, k₂⟩, filledRest, h⟩ := Option.bind_eq_some_iff.mp h
    cases h
    exact .cons ((shows_slot style filled _).named _ arrow) (ih filledRest)

end Filling

/-! ## Predicates -/

theorem optional_eq_map_given (style : Style) (argument : Argument) (v? : Option Value) :
    style.optional argument v? =
      (LeafArgument.given argument v?).map fun av =>
        (av.1.name style, [.slot av.2 av.1.argument?]) := by
  cases v? <;> rfl

theorem fuzzyArguments_eq_map_given (style : Style) (options : FuzzyOptions) :
    style.fuzzyArguments options =
      options.given.map fun av => (av.1.name style, [.slot av.2 av.1.argument?]) := by
  rw [Style.fuzzyArguments, FuzzyOptions.given, List.map_append, List.map_append,
    optional_eq_map_given, optional_eq_map_given, optional_eq_map_given]

theorem shows_ofLeaf (style : Style) {function field : String}
    {arguments : List (LeafArgument × Value)} {o : Outline} (h : Outline.ofLeaf? function field arguments k = some (o, k')) :
    Shows style
      (style.leaf function field
        (arguments.map fun av => (av.1.name style, [.slot av.2 av.1.argument?])))
      k (o.text style) o.fillings k' := by
  obtain ⟨⟨fillings, k₁⟩, filled, h⟩ := Option.bind_eq_some_iff.mp h
  cases h
  have shown := Filling.shows_ofEach style filled style.leafArrow (LeafArgument.name style)
    LeafArgument.argument?
  rw [Style.leaf, List.map_map]
  exact (ShowsEach.cons ((shows_text (Sql.quote field)).named "field" style.leafArrow) shown).call _

namespace Predicate

theorem shows_outlines {ps : List (Predicate Value)} {depth : ℕ}
    (h : ∀ p ∈ ps, ∀ {o : Outline} {k k' : Int}, p.outline? k = some (o, k') →
      Shows style (style.script depth p) k (o.text style) o.fillings k')
    {os : List Outline} (outlined : outlines? ps k = some (os, k')) :
    ShowsEach style (style.scripts depth ps) k (Outline.texts style os) (Outline.allFillings os)
      k' := by
  induction ps generalizing os k with
  | nil =>
    cases outlined
    exact .nil
  | cons p ps ih =>
    obtain ⟨here, later⟩ := List.forall_mem_cons.mp h
    obtain ⟨⟨o, k₁⟩, outlinedFirst, outlined⟩ := Option.bind_eq_some_iff.mp outlined
    obtain ⟨⟨os, k₂⟩, outlinedRest, outlined⟩ := Option.bind_eq_some_iff.mp outlined
    cases outlined
    exact .cons (here outlinedFirst) (ih later outlinedRest)

/-- What is written of a predicate, in any dialect and at any depth, is its outline. -/
theorem shows_outline (style : Style) {p : Predicate Value} {o : Outline}
    (h : p.outline? k = some (o, k')) (depth : ℕ) :
    Shows style (style.script depth p) k (o.text style) o.fillings k' := by
  induction p using tree_induction generalizing o k k' depth with
  | leaf p leaf =>
    cases p with
    | parse query =>
      obtain ⟨⟨filling, k₁⟩, filled, h⟩ := Option.bind_eq_some_iff.mp h
      cases h
      exact ((ShowsEach.cons (shows_slot style filled none) .nil).call _).enter depth
    | term field v => exact (shows_ofLeaf style h).enter depth
    | fuzzy field v options =>
      have shown := (shows_ofLeaf style h).enter depth
      rw [List.map_cons, ← fuzzyArguments_eq_map_given] at shown
      exact shown
    | phrase field phrases slop =>
      have shown := (shows_ofLeaf style h).enter depth
      rw [List.map_cons, ← optional_eq_map_given] at shown
      exact shown
    | range field r => exact (shows_ofLeaf style h).enter depth
    | present field => exact (shows_ofLeaf style h).enter depth
    | foreign typeName => cases h
    | boolean => cases leaf
    | boost => cases leaf
  | boolean kind first rest ih =>
    obtain ⟨⟨first', k₁⟩, outlinedFirst, h⟩ := Option.bind_eq_some_iff.mp h
    obtain ⟨⟨rest', k₂⟩, outlinedRest, h⟩ := Option.bind_eq_some_iff.mp h
    cases h
    obtain ⟨here, later⟩ := List.forall_mem_cons.mp ih
    have children : ShowsEach style (style.scripts (depth + 1) (first :: rest)) k
        (Outline.texts style (first' :: rest')) (Outline.allFillings (first' :: rest')) k' :=
      .cons (here outlinedFirst (depth + 1))
        (shows_outlines (fun p hp _ _ _ outlined => later p hp outlined (depth + 1)) outlinedRest)
    have row := (shows_text style.arrayOpen).append
      (children.commaSeparated.append (shows_text style.arrayClose))
    rw [List.append_nil, List.nil_append, ← String.append_assoc] at row
    have shown := ((ShowsEach.cons (row.named kind.name " => ") .nil).call
      (style.namespaceText ++ "boolean")).enter depth
    rw [List.append_nil] at shown
    exact shown
  | boost query factor ih =>
    have filled : Value.fill? (.real (.finite factor.value)) k =
      some (.bound k (.float factor.value), k + 1) := rfl
    obtain ⟨⟨query', k₁⟩, outlined, h⟩ := Option.bind_eq_some_iff.mp h
    cases h
    have factorShown := (shows_slot style filled (some .factor)).named "factor" " => "
    have queryShown := (ih outlined (depth + 1)).named "query" " => "
    have shown := ((ShowsEach.cons factorShown (.cons queryShown .nil)).call
      (style.namespaceText ++ "boost")).enter depth
    rw [List.append_nil] at shown
    exact shown

theorem exists_outlines {ps : List (Predicate Value)}
    (h : ∀ p ∈ ps, ∀ k, ∃ o k', p.outline? k = some (o, k')) (k : Int) :
    ∃ os k', outlines? ps k = some (os, k') := by
  induction ps generalizing k with
  | nil => exact ⟨[], k, rfl⟩
  | cons p ps ih =>
    obtain ⟨here, later⟩ := List.forall_mem_cons.mp h
    obtain ⟨o, k₁, outlined⟩ := here k
    obtain ⟨os, k₂, rest⟩ := ih later k₁
    exact ⟨o :: os, k₂, by simp [outlines?, outlined, rest]⟩

theorem exists_ofLeaf {function field : String} {arguments : List (LeafArgument × Value)}
    (h : ∀ av ∈ arguments, av.2.IsLiteral) (k : Int) :
    ∃ o k', Outline.ofLeaf? function field arguments k = some (o, k') := by
  obtain ⟨fillings, k', filled⟩ := Filling.exists_ofEach h k
  exact ⟨.leaf function field fillings, k', by simp [Outline.ofLeaf?, filled]⟩

theorem isLiteral_given {β : Type} {argument : Argument} {f : β → Value}
    (h : ∀ b, (f b).IsLiteral) (v? : Option β) :
    ∀ av ∈ LeafArgument.given argument (v?.map f), av.2.IsLiteral := by
  cases v? with
  | none => exact List.forall_mem_nil _
  | some b => exact List.forall_mem_singleton.mpr (h b)

theorem isLiteral_givenFuzzy (options : FuzzyOptions) :
    ∀ av ∈ options.given, av.2.IsLiteral := by
  refine List.forall_mem_append.mpr ⟨List.forall_mem_append.mpr ⟨?_, ?_⟩, ?_⟩
  · exact isLiteral_given (fun d : Fin 3 => Value.isLiteral_int d.val) _
  · exact isLiteral_given Value.isLiteral_bool _
  · exact isLiteral_given Value.isLiteral_bool _

theorem exists_outline {p : Predicate Value} (known : ∀ n, .foreign n ∉ p.nodes)
    (literals : ∀ v ∈ p.literals, v.IsLiteral) (k : Int) :
    ∃ o k', p.outline? k = some (o, k') := by
  induction p using tree_induction generalizing k with
  | leaf p leaf =>
    have own {v w : Value} (hw : p.literal? = some w) (hv : v.encode = w.encode) : v.IsLiteral := by
      obtain ⟨literal, encoded⟩ := literals w (mem_literals_of_literal hw)
      exact ⟨literal, hv.trans encoded⟩
    cases p with
    | parse query =>
      obtain ⟨filling, k₁, filled⟩ := Value.IsLiteral.exists_fill (own rfl rfl) k
      exact ⟨.parse filling, k₁, by simp [outline?, filled]⟩
    | term field v => exact exists_ofLeaf (List.forall_mem_singleton.mpr (own rfl rfl)) k
    | fuzzy field v options =>
      exact exists_ofLeaf (List.forall_mem_cons.mpr ⟨own rfl rfl, isLiteral_givenFuzzy options⟩) k
    | phrase field phrases slop =>
      refine exists_ofLeaf (List.forall_mem_cons.mpr ⟨?_, ?_⟩) k
      · -- The literal of the node is a tuple, what is written is a list: both encode to one array.
        exact @own _ (.tuple phrases) rfl rfl
      · exact isLiteral_given (fun n => Value.isLiteral_int n) slop
    | range field r => exact exists_ofLeaf (List.forall_mem_singleton.mpr (own rfl rfl)) k
    | present field => exact exists_ofLeaf (List.forall_mem_nil _) k
    | foreign typeName =>
      refine absurd ?_ (known typeName)
      rw [nodes_eq_cons]
      exact List.mem_cons_self
    | boolean => cases leaf
    | boost => cases leaf
  | boolean kind first rest ih =>
    have below : ∀ p ∈ first :: rest, ∀ k, ∃ o k', p.outline? k = some (o, k') := by
      intro p hp
      refine ih p hp (fun n hn => known n (nodes_child hp hn)) ?_
      intro v hv
      exact literals v (literals_child hp hv)
    obtain ⟨here, later⟩ := List.forall_mem_cons.mp below
    obtain ⟨o, k₁, outlined⟩ := here k
    obtain ⟨os, k₂, rest⟩ := exists_outlines later k₁
    exact ⟨.boolean kind o os, k₂, by simp [outline?, outlined, rest]⟩
  | boost query factor ih =>
    have child : query ∈ (boost query factor).children := List.mem_cons_self
    obtain ⟨filling, k₁, filled⟩ := (Value.isLiteral_finite factor.value).exists_fill k
    obtain ⟨o, k₂, outlined⟩ := ih (fun n hn => known n (nodes_child child hn))
      (fun v hv => literals v (literals_child child hv)) k₁
    exact ⟨.boost filling o, k₂, by simp [outline?, filled, outlined]⟩

end Predicate

namespace SearchTree

theorem optionArguments_eq_map (tree : SearchTree) :
    Style.optionArguments tree.options =
      tree.givenOptions.map fun ov => named ov.1.name " => " [.slot ov.2 (some (.option ov.1))] := by
  rw [givenOptions, List.map_filterMap, Style.optionArguments]
  simp only [Option.map_map]
  rfl

/-- What is written for a search call, in any dialect, is its outline. -/
theorem shows_searchCall {tree : SearchTree} {first : Int} {call : CallOutline}
    (h : tree.outline? first = some call) (style : Style) :
    ∃ last, Shows style (style.searchCall tree) first (call.text style) call.fillings last := by
  obtain ⟨⟨root, k₁⟩, outlined, h⟩ := Option.bind_eq_some_iff.mp h
  obtain ⟨⟨options, k₂⟩, filled, h⟩ := Option.bind_eq_some_iff.mp h
  cases h
  have rootShown := (Predicate.shows_outline style outlined 1).named "query" " => "
  have optionsShown := Filling.shows_ofEach style filled " => " SearchOption.name fun o =>
    some (.option o)
  rw [← optionArguments_eq_map] at optionsShown
  exact ⟨k₂, (ShowsEach.cons rootShown optionsShown).call (tree.binding.index.name ++ ".search")⟩

theorem IsValidated.exists_outline {tree : SearchTree} (validated : tree.IsValidated)
    (known : ∀ n, .foreign n ∉ tree.root.nodes) (first : Int) :
    ∃ call, tree.outline? first = some call := by
  obtain ⟨root, k, outlined⟩ := Predicate.exists_outline known validated.literals first
  have literals : ∀ ov ∈ tree.givenOptions, ov.2.IsLiteral := by
    intro ov hov
    obtain ⟨o, -, given⟩ := List.mem_filterMap.mp hov
    obtain ⟨v, set, rfl⟩ := Option.map_eq_some_iff.mp given
    exact SearchOption.isLiteral_of_accepts (validated.options o v set)
  obtain ⟨options, k', filled⟩ := Filling.exists_ofEach literals k
  exact ⟨⟨tree.binding.index.name, root, options⟩, by simp [outline?, outlined, filled]⟩

/-- A validated tree of known nodes has one outline for both dialects. Each writes it in its own
spelling, so a placeholder stands in the same place, for the same argument of the call with the same
field, and is followed by the same one. They are numbered one after the other, and the parameters
are the literals that they stand for, in either dialect, so a number means the same value in both. -/
theorem dialects_share_outline (tree : SearchTree) (known : ∀ n, .foreign n ∉ tree.root.nodes)
    (validated : tree.IsValidated) (first : Int) :
    ∃ call, tree.outline? first = some call ∧
      call.bounds.map Prod.fst = block first call.bounds.length ∧
      ∀ (e : Emitter) (dialect : Dialect) (maxDepth maxLength : Int),
        e.settings = ⟨dialect, true, maxDepth, maxLength⟩ →
        (tree.root.depth ≤ maxDepth → (call.text dialect.style).length ≤ maxLength →
          ∃ x, (e.dictate tree first).2 = .ok x) ∧
        ∀ x, (e.dictate tree first).2 = .ok x →
          x.sql = call.text dialect.style ∧
          x.parameters = call.bounds.map fun bound => bound.2.value := by
  obtain ⟨call, outlined⟩ := validated.exists_outline known first
  -- The outline names no dialect, so the numbers that one of them shows are those of both.
  obtain ⟨_, shown⟩ := shows_searchCall outlined Dialect.shorthand.style
  refine ⟨call, outlined, shown.numbers, ?_⟩
  intro e dialect maxDepth maxLength he
  obtain ⟨_, shown⟩ := shows_searchCall outlined dialect.style
  obtain ⟨t, ht, text, literals⟩ := shown.template
  have emitted (x : Expression) : (e.dictate tree first).2 = .ok x ↔
      x = tree.filled ⟨dialect, true, maxDepth, maxLength⟩ first t ∧
        tree.root.depth ≤ maxDepth ∧ x.sql.length ≤ maxLength := by
    rw [Emitter.dictate_eq_emit, Emitter.snd_emit, he]
    exact @emit_eq_ok_iff ⟨dialect, true, maxDepth, maxLength⟩ first tree t ht x
  have parameters : t.parameters = call.bounds.map fun bound => bound.2.value := by
    rw [Template.parameters, literals, List.map_map]
    rfl
  constructor
  · intro shallow short
    rw [← text] at short
    exact ⟨_, (emitted _).mpr ⟨rfl, shallow, short⟩⟩
  · intro x hx
    obtain ⟨rfl, -⟩ := (emitted x).mp hx
    exact ⟨text, parameters⟩

/-- A search for words with all their optional arguments. A phrase is searched for that adds nothing
to the score. -/
def tolerantSearch : SearchTree where
  binding := ⟨"d", "d", ⟨"d", "i", ["a", "b"], none⟩⟩
  root := .boolean .should (.fuzzy "a" "x" ⟨some (Fin.last 2), some true, some false⟩)
    [.boost (.phrase "b" [.text "y", .text "z"] (some 2)) ⟨.real (.zero false), .zero false, rfl⟩]
  options := [(.stableSort, .bool true), (.limitRows, .int 5)]

theorem isValidated_tolerantSearch : tolerantSearch.IsValidated := by
  constructor
  · intro v hv
    rw [Predicate.literals, Predicate.nodes_eq_preorder] at hv
    have both : .text "x" = v ∨ .tuple [.text "y", .text "z"] = v := by
      simpa [tolerantSearch, Predicate.preorder, Predicate.preorderAll, Predicate.literal?] using hv
    rcases both with rfl | rfl
    · exact ⟨.string "x", rfl⟩
    · exact ⟨.textArray ["y", "z"], rfl⟩
  · intro o v ho
    cases o with
    | limitRows => cases ho; rfl
    | offsetRows => cases ho
    | stableSort => cases ho; rfl

def executableText : String :=
  "i.search(query => paradedb.boolean(should => ARRAY[paradedb.fuzzy_term(field => 'a', " ++
    "value => $4::text, distance => $5::integer, transposition_cost_one => true, " ++
    "prefix => false), paradedb.boost(factor => $6::real, query => paradedb.phrase(" ++
    "field => 'b', phrases => $7::text[], slop => $8::integer))]), " ++
    "limit_rows => $9::integer, stable_sort => true)"

def readableText : String :=
  "i.search(query => boolean(should => [fuzzy_term(field=>'a', value=>$4, distance=>$5, " ++
    "transpose_cost_one=>true, prefix=>false), boost(factor => $6, query => phrase(" ++
    "field=>'b', phrases=>$7, slop=>$8))]), limit_rows => $9, stable_sort => true)"

theorem dialects_share_outline_of_tolerantSearch :
    ∃ call x y, tolerantSearch.outline? 4 = some call ∧
      call.bounds.map Prod.fst = [4, 5, 6, 7, 8, 9] ∧
      ((Emitter.new ⟨.paradedb, true, 3, executableText.length⟩).dictate tolerantSearch 4).2 =
        .ok x ∧
      ((Emitter.new ⟨.shorthand, true, 3, readableText.length⟩).dictate tolerantSearch 4).2 =
        .ok y ∧
      x.sql = executableText ∧ y.sql = readableText ∧ x.parameters = y.parameters := by
  have known : ∀ n, .foreign n ∉ tolerantSearch.root.nodes := by
    intro n hn
    rw [Predicate.nodes_eq_preorder] at hn
    simp [tolerantSearch, Predicate.preorder, Predicate.preorderAll] at hn
  obtain ⟨call, outlined, -, written⟩ :=
    dialects_share_outline tolerantSearch known isValidated_tolerantSearch 4
  have same {β : Type} (f : CallOutline → β) :
      some (f call) = (tolerantSearch.outline? 4).map f := by
    rw [outlined]
    rfl
  have numbers : some (call.bounds.map Prod.fst) = some [4, 5, 6, 7, 8, 9] :=
    (same fun call => call.bounds.map Prod.fst).trans (by decide +kernel)
  have executable : some (call.text Dialect.paradedb.style) = some executableText :=
    (same (·.text Dialect.paradedb.style)).trans (by decide +kernel)
  have readable : some (call.text Dialect.shorthand.style) = some readableText :=
    (same (·.text Dialect.shorthand.style)).trans (by decide +kernel)
  obtain ⟨emits, shows⟩ :=
    written (Emitter.new ⟨.paradedb, true, 3, executableText.length⟩) .paradedb 3 _ rfl
  obtain ⟨emits', shows'⟩ :=
    written (Emitter.new ⟨.shorthand, true, 3, readableText.length⟩) .shorthand 3 _ rfl
  rw [Option.some.inj executable] at emits shows
  rw [Option.some.inj readable] at emits' shows'
  obtain ⟨x, hx⟩ := emits (by decide) le_rfl
  obtain ⟨y, hy⟩ := emits' (by decide) le_rfl
  obtain ⟨sql, parameters⟩ := shows x hx
  obtain ⟨sql', parameters'⟩ := shows' y hy
  exact ⟨call, x, y, outlined, Option.some.inj numbers, hx, hy, sql, sql',
    parameters.trans parameters'.symm⟩

end SearchTree

end SearchSql
