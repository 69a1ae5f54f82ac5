import SearchSql.Proofs.Call.Placeholder
import SearchSql.Proofs.Call.Template
import SearchSql.Proofs.Predicate.Depth

/-!
# The steps of a script

Which steps the script of a predicate can have (`mem_script`), and with it that of a search call
(`mem_searchCall`): where a tree is checked in its leaves, every step of its call is as it should
be.
-/

namespace SearchSql

theorem mark_mem_escape {t : List Char} : Token.mark ∈ Sql.escape t ↔ Token.mark ∈ t := by
  induction t with
  | nil => rfl
  | cons c t ih =>
    rw [Sql.escape]
    split <;> simp [ih]

theorem plain_quote {s : String} : Plain (Sql.quote s) ↔ Plain s := by
  have apart : Token.mark ≠ Text.apostrophe := by decide
  simp [Plain, Sql.quote, mark_mem_escape, apart]

/-- The spellings of a dialect show no placeholder. -/
structure Style.IsPlain (style : Style) : Prop where
  namespaceText : Plain style.namespaceText
  leafArrow : Plain style.leafArrow
  arrayOpen : Plain style.arrayOpen
  arrayClose : Plain style.arrayClose
  transposeCostOne : Plain style.transposeCostOne

theorem Dialect.style_plain (dialect : Dialect) : dialect.style.IsPlain := by
  cases dialect <;> constructor <;> decide

theorem SearchOption.plain_name (o : SearchOption) : Plain o.name := by
  cases o <;> decide

theorem Style.IsPlain.argumentName {style : Style} (hs : style.IsPlain) (argument : Argument) :
    Plain (style.argumentName argument) := by
  cases argument with
  | option o => exact o.plain_name
  | transposeCostOne => exact hs.transposeCostOne
  | distance => exact (by decide : Plain "distance")
  | prefixMatch => exact (by decide : Plain "prefix")
  | slop => exact (by decide : Plain "slop")
  | factor => exact (by decide : Plain "factor")

theorem Value.isLiteral_int (n : Int) : (Value.int n).IsLiteral := ⟨.integer n, rfl⟩

theorem Value.isLiteral_bool (b : Bool) : (Value.bool b).IsLiteral := ⟨.boolean b, rfl⟩

theorem Value.isLiteral_finite (x : Finite64) : (Value.real (.finite x)).IsLiteral :=
  ⟨.float x, rfl⟩

namespace Script

section Each

variable {P : Step → Prop}

theorem each_commaSeparated (plain : ∀ s, Plain s → P (.text s)) {args : List Script}
    (h : ∀ s ∈ args, ∀ step ∈ s, P step) : ∀ step ∈ commaSeparated args, P step := by
  fun_induction commaSeparated args with
  | case1 => exact List.forall_mem_nil _
  | case2 s => exact h s List.mem_cons_self
  | case3 s rest _ ih =>
    refine List.forall_mem_append.mpr ⟨h s List.mem_cons_self, ?_⟩
    refine List.forall_mem_cons.mpr ⟨plain _ (by decide), ih ?_⟩
    intro t ht
    exact h t (List.mem_cons_of_mem _ ht)

theorem each_named (plain : ∀ s, Plain s → P (.text s)) {name arrow : String} {value : Script}
    (hname : Plain name) (harrow : Plain arrow) (h : ∀ step ∈ value, P step) :
    ∀ step ∈ named name arrow value, P step :=
  List.forall_mem_cons.mpr ⟨plain _ (plain_append.mpr ⟨hname, harrow⟩), h⟩

theorem each_call (plain : ∀ s, Plain s → P (.text s)) {function : String} {args : List Script}
    (hfunction : Plain function) (h : ∀ s ∈ args, ∀ step ∈ s, P step) :
    ∀ step ∈ call function args, P step := by
  refine List.forall_mem_cons.mpr ⟨plain _ (plain_append.mpr ⟨hfunction, by decide⟩), ?_⟩
  refine List.forall_mem_append.mpr ⟨each_commaSeparated plain h, ?_⟩
  exact List.forall_mem_singleton.mpr (plain _ (by decide))

/-- The arguments are given as their names and scripts. -/
theorem each_leaf (plain : ∀ s, Plain s → P (.text s)) {style : Style} (hs : style.IsPlain)
    {function field : String} {args : List (String × Script)} (hfunction : Plain function)
    (hfield : P (.text (Sql.quote field)))
    (h : ∀ arg ∈ args, Plain arg.1 ∧ ∀ step ∈ arg.2, P step) :
    ∀ step ∈ style.leaf function field args, P step := by
  refine each_call plain (plain_append.mpr ⟨hs.namespaceText, hfunction⟩) ?_
  refine List.forall_mem_cons.mpr ⟨?_, List.forall_mem_map.mpr ?_⟩
  · exact each_named plain (by decide) hs.leafArrow (List.forall_mem_singleton.mpr hfield)
  · intro arg harg
    exact each_named plain (h arg harg).1 hs.leafArrow (h arg harg).2

theorem each_optional {style : Style} (hs : style.IsPlain) {argument : Argument} {β : Type}
    {f : β → Value} {v : Option β} (h : ∀ b, P (.slot (f b) (some argument))) :
    ∀ arg ∈ style.optional argument (v.map f), Plain arg.1 ∧ ∀ step ∈ arg.2, P step := by
  cases v with
  | none => exact List.forall_mem_nil _
  | some b =>
    exact List.forall_mem_singleton.mpr
      ⟨hs.argumentName argument, List.forall_mem_singleton.mpr (h b)⟩

theorem each_fuzzyArguments {style : Style} (hs : style.IsPlain) {options : FuzzyOptions}
    (h : ∀ v argument, v.IsLiteral → P (.slot v argument)) :
    ∀ arg ∈ style.fuzzyArguments options, Plain arg.1 ∧ ∀ step ∈ arg.2, P step := by
  refine List.forall_mem_append.mpr ⟨List.forall_mem_append.mpr ⟨?_, ?_⟩, ?_⟩
  · exact each_optional hs fun d => h _ _ (Value.isLiteral_int d.val)
  · exact each_optional hs fun b => h _ _ (Value.isLiteral_bool b)
  · exact each_optional hs fun b => h _ _ (Value.isLiteral_bool b)

end Each

end Script

/-- The steps that the script of a predicate can have at a depth. Its slots are for what its leaves
compare with, or for values that are literals in any case. -/
inductive Predicate.HasStep (p : Predicate Value) (depth : ℕ) : Step → Prop where
  | text (s : String) (h : (∀ f ∈ p.fields, Plain f) → Plain s) : HasStep p depth (.text s)
  | enter (d : ℕ) (h : d < depth + p.depth) : HasStep p depth (.enter d)
  | slot (v : Value) (argument : Option Argument)
      (h : v.IsLiteral ∨ ∃ w ∈ p.literals, v.encode = w.encode) : HasStep p depth (.slot v argument)
  | unsupported (typeName : String) (h : .foreign typeName ∈ p.nodes) :
      HasStep p depth (.unsupported typeName)

namespace Predicate

theorem HasStep.plain {p : Predicate Value} {depth : ℕ} (s : String) (h : Plain s) :
    p.HasStep depth (.text s) := .text s fun _ => h

theorem nodes_child {p q : Predicate Value} (h : q ∈ p.children) {r : Predicate Value}
    (hr : r ∈ q.nodes) : r ∈ p.nodes := by
  rw [nodes_eq_cons]
  exact List.mem_cons_of_mem _ (List.mem_flatMap.mpr ⟨q, h, hr⟩)

/-- The steps of a child are steps of the node. -/
theorem HasStep.of_child {p q : Predicate Value} {depth : ℕ} {step : Step} (hq : q ∈ p.children)
    (h : q.HasStep (depth + 1) step) : p.HasStep depth step := by
  have lift {β : Type} {f : Predicate Value → Option β} {b : β}
      (hb : b ∈ q.nodes.filterMap f) : b ∈ p.nodes.filterMap f := by
    obtain ⟨r, hr, hf⟩ := List.mem_filterMap.mp hb
    exact List.mem_filterMap.mpr ⟨r, nodes_child hq hr, hf⟩
  cases h with
  | text s h => exact .text s fun plain => h fun f hf => plain f (lift hf)
  | enter d h =>
    have hd := depth_child hq
    exact .enter d (by omega)
  | slot v argument h =>
    refine .slot v argument (h.imp_right ?_)
    rintro ⟨w, hw, same⟩
    exact ⟨w, lift hw, same⟩
  | unsupported n h => exact .unsupported n (nodes_child hq h)

end Predicate

theorem Style.scripts_eq_map (style : Style) (depth : ℕ) (ps : List (Predicate Value)) :
    style.scripts depth ps = ps.map (style.script depth) := by
  induction ps with
  | nil => rfl
  | cons p ps ih => rw [scripts, ih, List.map_cons]

namespace Predicate

/-- The marks and slots of a leaf are its own. -/
theorem each_script_leaf {style : Style} (hs : style.IsPlain) {p : Predicate Value}
    (leaf : p.children = []) (depth : ℕ) :
    ∀ step ∈ style.script depth p, p.HasStep depth step := by
  have plain : ∀ s, Plain s → p.HasStep depth (.text s) := HasStep.plain
  have enter : p.HasStep depth (.enter depth) := .enter depth (by rw [depth_eq]; omega)
  have own : p ∈ p.nodes := by
    rw [nodes_eq_cons]
    exact List.mem_cons_self
  have literal (w : Value) (hw : p.literal? = some w) : w ∈ p.literals :=
    List.mem_filterMap.mpr ⟨p, own, hw⟩
  have field (f : String) (hf : p.field? = some f) : p.HasStep depth (.text (Sql.quote f)) :=
    .text _ fun h => plain_quote.mpr (h f (List.mem_filterMap.mpr ⟨p, own, hf⟩))
  have value (w v : Value) (argument : Option Argument) (hw : p.literal? = some w)
      (hv : v.encode = w.encode) : p.HasStep depth (.slot v argument) :=
    .slot v argument (Or.inr ⟨w, literal w hw, hv⟩)
  have constant (v : Value) (argument : Option Argument) (hv : v.IsLiteral) :
      p.HasStep depth (.slot v argument) :=
    .slot v argument (Or.inl hv)
  cases p with
  | parse query =>
    refine List.forall_mem_cons.mpr ⟨enter, ?_⟩
    refine Script.each_call plain (plain_append.mpr ⟨hs.namespaceText, by decide⟩) ?_
    exact List.forall_mem_singleton.mpr (List.forall_mem_singleton.mpr (value _ _ _ rfl rfl))
  | term f v =>
    refine List.forall_mem_cons.mpr ⟨enter, ?_⟩
    refine Script.each_leaf plain hs (by decide) (field f rfl) ?_
    refine List.forall_mem_singleton.mpr ⟨(by decide : Plain "value"), ?_⟩
    exact List.forall_mem_singleton.mpr (value v v none rfl rfl)
  | fuzzy f v options =>
    refine List.forall_mem_cons.mpr ⟨enter, ?_⟩
    refine Script.each_leaf plain hs (by decide) (field f rfl) ?_
    refine List.forall_mem_cons.mpr ⟨⟨(by decide : Plain "value"), ?_⟩, ?_⟩
    · exact List.forall_mem_singleton.mpr (value _ _ _ rfl rfl)
    · exact Script.each_fuzzyArguments hs constant
  | phrase f phrases slop =>
    refine List.forall_mem_cons.mpr ⟨enter, ?_⟩
    refine Script.each_leaf plain hs (by decide) (field f rfl) ?_
    refine List.forall_mem_cons.mpr ⟨⟨(by decide : Plain "phrases"), ?_⟩, ?_⟩
    · exact List.forall_mem_singleton.mpr (value (.tuple phrases) _ _ rfl rfl)
    · exact Script.each_optional hs fun n => constant _ _ (Value.isLiteral_int n)
  | range f r =>
    refine List.forall_mem_cons.mpr ⟨enter, ?_⟩
    refine Script.each_leaf plain hs (by decide) (field f rfl) ?_
    refine List.forall_mem_singleton.mpr ⟨(by decide : Plain "range"), ?_⟩
    exact List.forall_mem_singleton.mpr (value (.range r) _ _ rfl rfl)
  | present f =>
    refine List.forall_mem_cons.mpr ⟨enter, ?_⟩
    exact Script.each_leaf plain hs (by decide) (field f rfl) (List.forall_mem_nil _)
  | boolean kind first rest => cases leaf
  | boost query factor => cases leaf
  | foreign n =>
    refine List.forall_mem_cons.mpr ⟨enter, List.forall_mem_singleton.mpr ?_⟩
    exact .unsupported n own

theorem mem_script {style : Style} (hs : style.IsPlain) (p : Predicate Value) (depth : ℕ) :
    ∀ step ∈ style.script depth p, p.HasStep depth step := by
  induction p using tree_induction generalizing depth with
  | leaf p h => exact each_script_leaf hs h depth
  | boolean kind first rest ih =>
    have plain := @HasStep.plain (.boolean kind first rest) depth
    have enter : (boolean kind first rest).HasStep depth (.enter depth) :=
      .enter depth (by rw [depth_eq]; omega)
    have hkind : Plain kind.name := by cases kind <;> decide
    have inner : ∀ s ∈ style.scripts (depth + 1) (first :: rest), ∀ step ∈ s,
        (boolean kind first rest).HasStep depth step := by
      rw [Style.scripts_eq_map]
      refine List.forall_mem_map.mpr ?_
      intro q hq step hstep
      exact .of_child hq (ih q hq (depth + 1) step hstep)
    refine List.forall_mem_cons.mpr ⟨enter, ?_⟩
    refine Script.each_call plain (plain_append.mpr ⟨hs.namespaceText, by decide⟩) ?_
    refine List.forall_mem_singleton.mpr (Script.each_named plain hkind (by decide) ?_)
    refine List.forall_mem_cons.mpr ⟨plain _ hs.arrayOpen, ?_⟩
    refine List.forall_mem_append.mpr ⟨Script.each_commaSeparated plain inner, ?_⟩
    exact List.forall_mem_singleton.mpr (plain _ hs.arrayClose)
  | boost query factor ih =>
    have plain := @HasStep.plain (.boost query factor) depth
    have enter : (boost query factor).HasStep depth (.enter depth) :=
      .enter depth (by rw [depth_eq]; omega)
    have inner : ∀ step ∈ style.script (depth + 1) query,
        (boost query factor).HasStep depth step := by
      intro step hstep
      exact .of_child List.mem_cons_self (ih (depth + 1) step hstep)
    refine List.forall_mem_cons.mpr ⟨enter, ?_⟩
    refine Script.each_call plain (plain_append.mpr ⟨hs.namespaceText, by decide⟩) ?_
    refine List.forall_mem_cons.mpr ⟨?_, List.forall_mem_singleton.mpr ?_⟩
    · refine Script.each_named plain (by decide) (by decide) ?_
      exact List.forall_mem_singleton.mpr
        (.slot _ _ (Or.inl (Value.isLiteral_finite factor.value)))
    · exact Script.each_named plain (by decide) (by decide) inner

end Predicate

/-- The steps that a search call can have. -/
inductive SearchTree.HasStep (tree : SearchTree) : Step → Prop where
  | text (s : String)
      (h : Plain tree.binding.index.name → (∀ f ∈ tree.root.fields, Plain f) → Plain s) :
      HasStep tree (.text s)
  | enter (d : ℕ) (h : d ≤ tree.root.depth) : HasStep tree (.enter d)
  | slot (v : Value) (argument : Option Argument)
      (h : v.IsLiteral ∨ (∃ w ∈ tree.root.literals, v.encode = w.encode) ∨
        ∃ o, tree.options.get? o = some v) : HasStep tree (.slot v argument)
  | unsupported (typeName : String) (h : .foreign typeName ∈ tree.root.nodes) :
      HasStep tree (.unsupported typeName)

namespace SearchTree

theorem HasStep.of_root {tree : SearchTree} {step : Step} (h : tree.root.HasStep 1 step) :
    tree.HasStep step := by
  cases h with
  | text s h => exact .text s fun _ fields => h fields
  | enter d h => exact .enter d (by omega)
  | slot v argument h => exact .slot v argument (h.imp_right Or.inl)
  | unsupported n h => exact .unsupported n h

theorem mem_optionArguments (tree : SearchTree) :
    ∀ s ∈ Style.optionArguments tree.options, ∀ step ∈ s, tree.HasStep step := by
  intro s hs
  obtain ⟨o, -, ho⟩ := List.mem_filterMap.mp hs
  obtain ⟨v, hv, rfl⟩ := Option.map_eq_some_iff.mp ho
  refine Script.each_named (fun s h => .text s fun _ _ => h) o.plain_name (by decide) ?_
  exact List.forall_mem_singleton.mpr (.slot v _ (Or.inr (Or.inr ⟨o, hv⟩)))

theorem mem_searchCall {style : Style} (hs : style.IsPlain) (tree : SearchTree) :
    ∀ step ∈ style.searchCall tree, tree.HasStep step := by
  have plain : ∀ s, Plain s → tree.HasStep (.text s) := fun s h => .text s fun _ _ => h
  have query : ∀ step ∈ Script.named "query" " => " (style.script 1 tree.root),
      tree.HasStep step := by
    refine Script.each_named plain (by decide) (by decide) ?_
    intro step hstep
    exact .of_root (tree.root.mem_script hs 1 step hstep)
  have arguments : ∀ s ∈ Script.named "query" " => " (style.script 1 tree.root) ::
      Style.optionArguments tree.options, ∀ step ∈ s, tree.HasStep step :=
    List.forall_mem_cons.mpr ⟨query, tree.mem_optionArguments⟩
  -- The name of the function is the only text that the style does not give.
  refine List.forall_mem_cons.mpr ⟨.text _ ?_, ?_⟩
  · intro index _
    exact plain_append.mpr ⟨plain_append.mpr ⟨index, by decide⟩, by decide⟩
  · refine List.forall_mem_append.mpr ⟨Script.each_commaSeparated plain arguments, ?_⟩
    exact List.forall_mem_singleton.mpr (plain _ (by decide))

end SearchTree

end SearchSql
