import SearchSql.Proofs.Call.Emission

/-!
# The inline text of a script

What a script is written as when every value stands in its place. The text of a script is put
together from those of its steps, so the text of a call is that of its arguments between fixed
pieces (`inline_call`, `inline_leaf`), and an emitted call has the text of its script
(`inline_of_emit`).
-/

namespace SearchSql

/-- The text of a step. What cannot be written has none. -/
def Step.inline (style : Style) : Step → List Char
  | .text s => s.toList
  | .slot v _ => match v.encode with
    | .ok literal => (style.literalText literal).toList
    | .error _ => []
  | _ => []

namespace Script

def inline (style : Style) (script : Script) : List Char := script.flatMap (Step.inline style)

variable {style : Style}

@[simp] theorem inline_nil : inline style [] = [] := rfl

@[simp] theorem inline_text (s : String) (rest : Script) :
    inline style (.text s :: rest) = s.toList ++ inline style rest := rfl

@[simp] theorem inline_enter (depth : Nat) (rest : Script) :
    inline style (.enter depth :: rest) = inline style rest := rfl

@[simp] theorem inline_append (script rest : Script) :
    inline style (script ++ rest) = inline style script ++ inline style rest :=
  List.flatMap_append

theorem inline_slot {v : Value} {literal : Literal} (h : v.encode = .ok literal)
    (argument : Option Argument) :
    inline style [.slot v argument] = (style.literalText literal).toList := by
  simp [inline, Step.inline, h]

/-- The text of items behind a first one, with a comma before each. -/
def behindCommas {α : Type} (f : α → List Char) (items : List α) : List Char :=
  items.flatMap fun item => ',' :: ' ' :: f item

@[simp] theorem behindCommas_nil {α : Type} (f : α → List Char) : behindCommas f [] = [] := rfl

@[simp] theorem behindCommas_cons {α : Type} (f : α → List Char) (item : α) (items : List α) :
    behindCommas f (item :: items) = ',' :: ' ' :: (f item ++ behindCommas f items) := rfl

theorem behindCommas_map {α β : Type} (f : β → List Char) (g : α → β) (items : List α) :
    behindCommas f (items.map g) = behindCommas (f ∘ g) items := by
  simp [behindCommas, List.flatMap_map]

theorem intercalate_comma {α : Type} (f : α → List Char) (first : α) (rest : List α) :
    ", ".toList.intercalate ((first :: rest).map f) = f first ++ behindCommas f rest := by
  have comma : ", ".toList = [',', ' '] := by decide
  rw [comma]
  induction rest generalizing first with
  | nil => simp [List.intercalate]
  | cons second rest ih =>
    rw [behindCommas_cons, ← ih second]
    simp [List.intercalate]

theorem inline_commaSeparated (first : Script) (rest : List Script) :
    inline style (commaSeparated (first :: rest)) =
      inline style first ++ behindCommas (inline style) rest := by
  induction rest generalizing first with
  | nil => simp [commaSeparated]
  | cons second rest ih =>
    have comma : ", ".toList = [',', ' '] := by decide
    rw [commaSeparated, inline_append, inline_text, ih, comma]
    · rfl
    · exact List.cons_ne_nil _ _

theorem inline_call (function : String) (first : Script) (rest : List Script) :
    inline style (call function (first :: rest)) =
      function.toList ++ '(' ::
        (inline style first ++ (behindCommas (inline style) rest ++ [')'])) := by
  simp [call, inline_commaSeparated]

theorem inline_named (name arrow : String) (value : Script) :
    inline style (named name arrow value) =
      name.toList ++ (arrow.toList ++ inline style value) := by
  simp [named]

end Script

open Script

variable {style : Style}

theorem Style.toList_textArray_nil :
    (style.literalText (.textArray [])).toList =
      style.arrayOpen.toList ++ style.textArrayClose.toList := by
  simp [literalText]

theorem Style.toList_textArray_cons (first : String) (rest : List String) :
    (style.literalText (.textArray (first :: rest))).toList =
      style.arrayOpen.toList ++ ((Sql.quote first).toList ++
        (behindCommas (fun s => (Sql.quote s).toList) rest ++ style.textArrayClose.toList)) := by
  rw [literalText, String.toList_append, String.toList_append, String.toList_intercalate,
    List.map_map, intercalate_comma]
  simp [Function.comp_def]

/-- An argument of a leaf with its name. -/
def Style.argumentText (style : Style) (arg : String × Script) : List Char :=
  arg.1.toList ++ (style.leafArrow.toList ++ inline style arg.2)

theorem Style.inline_leaf (function field : String) (args : List (String × Script)) :
    inline style (style.leaf function field args) =
      (style.namespaceText ++ function).toList ++ '(' :: (("field" ++ style.leafArrow).toList ++
        ((Sql.quote field).toList ++ (behindCommas style.argumentText args ++ [')']))) := by
  have each : inline style ∘ (fun arg : String × Script => named arg.1 style.leafArrow arg.2) =
      style.argumentText := by
    funext arg
    exact inline_named arg.1 style.leafArrow arg.2
  rw [leaf, inline_call, inline_named, behindCommas_map, each]
  simp

theorem Style.inline_boolean (depth : Nat) (kind : Kind) (first : Predicate Value)
    (rest : List (Predicate Value)) :
    inline style (style.script depth (.boolean kind first rest)) =
      (style.namespaceText ++ "boolean").toList ++ '(' :: (kind.name.toList ++
        (" => ".toList ++ (style.arrayOpen.toList ++
          (inline style (style.script (depth + 1) first) ++
          (behindCommas (fun q => inline style (style.script (depth + 1) q)) rest ++
            (style.arrayClose.toList ++ [')'])))))) := by
  rw [script, inline_enter, inline_call, inline_named, List.cons_append, inline_text,
    inline_append, inline_commaSeparated, scripts_eq_map, behindCommas_map]
  simp [Function.comp_def]

theorem Style.inline_boost (depth : Nat) (query : Predicate Value) (factor : Factor) :
    inline style (style.script depth (.boost query factor)) =
      (style.namespaceText ++ "boost").toList ++ '(' :: ("factor => ".toList ++
        ((style.literalText (.float factor.value)).toList ++ (", query => ".toList ++
          (inline style (style.script (depth + 1) query) ++ [')'])))) := by
  have encoded : (Value.real (.finite factor.value)).encode = .ok (.float factor.value) := rfl
  rw [script, inline_enter, inline_call, inline_named, inline_slot encoded, behindCommas_cons,
    inline_named]
  simp

/-- An option of a search call that is set, with its name. -/
def Style.optionText (style : Style) (row : SearchOption × Value) : List Char :=
  row.1.name.toList ++ (" => ".toList ++ inline style [.slot row.2 (some (.option row.1))])

/-- The options that are set, in the order of a call. -/
def SearchTree.optionRows (tree : SearchTree) : List (SearchOption × Value) :=
  SearchOption.all.filterMap fun o => (tree.options.get? o).map fun v => (o, v)

theorem Style.inline_searchCall (tree : SearchTree) :
    inline style (style.searchCall tree) =
      (tree.binding.index.name ++ ".search(query => ").toList ++
        (inline style (style.script 1 tree.root) ++
          (behindCommas style.optionText tree.optionRows ++ [')'])) := by
  have rows : optionArguments tree.options =
      tree.optionRows.map fun row =>
        named row.1.name " => " [.slot row.2 (some (.option row.1))] := by
    simp [optionArguments, SearchTree.optionRows, List.map_filterMap, Option.map_map,
      Function.comp_def]
  have each : (inline style ∘ fun row : SearchOption × Value =>
      named row.1.name " => " [.slot row.2 (some (.option row.1))]) = style.optionText := by
    funext row
    exact inline_named row.1.name " => " _
  rw [searchCall, inline_call, inline_named, rows, behindCommas_map, each]
  simp

theorem Script.toList_inline {script : Script} {t : Template} (h : script.template? = some t) :
    (t.inline style).toList = script.inline style := by
  induction script, t, h using template_induction with
  | nil => rfl
  | text s rest t _ ih => rw [Template.inline, String.toList_append, ih, inline_text]
  | enter d rest t _ ih => exact ih
  | slot v argument literal rest t hv _ ih =>
    rw [Template.inline, String.toList_append, ih, ← inline_slot hv argument, ← inline_append]
    rfl

end SearchSql
