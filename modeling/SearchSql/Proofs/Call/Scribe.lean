import SearchSql.Call.Scribe
import SearchSql.Proofs.Call.Emitter

/-!
# Scribes and styles

The methods of a dialect differ from those of the other in spellings only: each writes what the style
of the dialect says (`visit_scribe`), so a call is written as it is by the style (`dictate_eq_emit`).
-/

namespace SearchSql

namespace Writing

theorem all_cons_text (s : String) {ws : List Writing} {t : String} (h : all ws = text t) :
    all (text s :: ws) = text (s ++ t) := by
  funext e
  simp only [all, h, text, String.append_assoc]

theorem all_text (s : String) : all [text s] = text s := rfl

theorem all_commaSeparated_texts (ss : List String) :
    all (commaSeparated (ss.map text)) = text (String.intercalate ", " ss) := by
  induction ss with
  | nil =>
    funext e
    rw [String.intercalate_nil, text, String.append_empty]
    rfl
  | cons s ss ih =>
    cases ss with
    | nil =>
      rw [String.intercalate_singleton]
      exact all_text s
    | cons t ss =>
      rw [String.intercalate_cons_cons, String.append_assoc]
      exact all_cons_text s (all_cons_text ", " ih)

theorem row_texts (opening closing : String) (ss : List String) :
    row opening closing (ss.map text) = text (opening ++ String.intercalate ", " ss ++ closing) := by
  rw [row, List.cons_append, String.append_assoc]
  refine all_cons_text opening ?_
  rw [all_append, all_commaSeparated_texts]
  exact all_cons_text _ (all_text closing)

end Writing

namespace Dialect

open Writing

theorem literal_scribe (dialect : Dialect) (literal : Literal) :
    dialect.scribe.literal literal = text (dialect.style.literalText literal) := by
  cases dialect with
  | paradedb =>
    cases literal with
    | textArray items =>
      have texts := row_texts "ARRAY[" "]::text[]" (items.map Sql.quote)
      rw [List.map_map] at texts
      exact texts
    | _ => rfl
  | shorthand =>
    cases literal with
    | textArray items =>
      have texts := row_texts "[" "]" (items.map Sql.quote)
      rw [List.map_map] at texts
      exact texts
    | _ => rfl

theorem placeholder_scribe (dialect : Dialect) (number : Int) (literal : Literal)
    (argument : Option Argument) :
    dialect.scribe.placeholder number literal argument =
      text (dialect.style.placeholder number argument literal) := by
  cases dialect with
  | paradedb => exact congrArg text (String.append_assoc ..)
  | shorthand => exact congrArg text (String.append_empty ..).symm

/-- A value is written as its style says, and bound under the same number. -/
theorem value_scribe : Scribe.value = Writing.value := by
  funext v argument e
  unfold Scribe.value Writing.value
  cases v.encode with
  | error x => rfl
  | ok literal => simp only [literal_scribe, placeholder_scribe, text]

theorem fuzzyOptions_scribe (dialect : Dialect) (options : FuzzyOptions) :
    dialect.scribe.fuzzyOptions options = dialect.style.writeFuzzyArguments options := by
  obtain ⟨distance, transposeCostOne, prefixMatch⟩ := options
  unfold Scribe.fuzzyOptions
  rw [value_scribe]
  cases dialect <;> cases distance <;> cases transposeCostOne <;> cases prefixMatch <;> rfl

theorem visits_eq_map (scribe : Scribe) (ps : List (Predicate Value)) :
    scribe.visits ps = ps.map scribe.visit := by
  induction ps with
  | nil => rfl
  | cons p ps ih => rw [Scribe.visits, ih, List.map_cons]

/-- A predicate is written as its style says. -/
theorem visit_scribe (dialect : Dialect) (p : Predicate Value) :
    dialect.scribe.visit p = dialect.style.visit p := by
  induction p using Predicate.tree_induction with
  | leaf p leaf =>
    cases p with
    | parse query =>
      rw [Scribe.visit, Style.visit, value_scribe]
      cases dialect <;> rfl
    | term field v =>
      rw [Scribe.visit, Style.visit, value_scribe]
      cases dialect <;> rfl
    | fuzzy field v options =>
      rw [Scribe.visit, Style.visit, value_scribe, fuzzyOptions_scribe]
      cases dialect <;> rfl
    | phrase field phrases slop =>
      rw [Scribe.visit, Style.visit, value_scribe]
      cases dialect <;> cases slop <;> rfl
    | range field r =>
      rw [Scribe.visit, Style.visit, value_scribe]
      cases dialect <;> rfl
    | present field => cases dialect <;> rfl
    | foreign typeName => rfl
    | boolean => cases leaf
    | boost => cases leaf
  | boolean kind first rest ih =>
    have children : dialect.scribe.visits (first :: rest) = dialect.style.visits (first :: rest) := by
      rw [visits_eq_map, Style.visits_eq_map]
      exact List.map_congr_left ih
    rw [Scribe.visits, Style.visits] at children
    rw [Scribe.visit, Style.visit, children]
    cases dialect <;> rfl
  | boost query factor ih =>
    rw [Scribe.visit, Style.visit, value_scribe, ih]
    cases dialect <;> rfl

theorem searchOptions_scribe (options : Table SearchOption Value) :
    arguments " => " (Scribe.searchOptions options) = Style.writeOptions options := by
  rw [Scribe.searchOptions, value_scribe, arguments, List.map_filterMap, Style.writeOptions]
  simp only [Option.map_map]
  rfl

end Dialect

theorem Emitter.dictate_eq_emit (e : Emitter) (tree : SearchTree) (first : Int) :
    e.dictate tree first = e.emit tree first := by
  have call : e.settings.dialect.scribe.searchCall tree.binding.index.name
      (e.settings.dialect.scribe.visit tree.root) (Scribe.searchOptions tree.options) =
        e.settings.dialect.style.writeSearchCall tree := by
    rw [Dialect.visit_scribe, Style.writeSearchCall, ← Dialect.searchOptions_scribe]
    cases e.settings.dialect <;> rfl
  rw [dictate, call]
  rfl

end SearchSql
