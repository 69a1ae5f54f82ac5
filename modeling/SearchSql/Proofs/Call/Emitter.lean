import Mathlib.Data.List.Forall2
import SearchSql.Call.Emitter
import SearchSql.Proofs.Call.Emission

/-!
# What emitters write

An emitter writes a call as the script of the call says (`follows_visit`), however deep the writing
is nested and wherever it breaks off. As every call is begun anew, the call does not depend on what
the emitter has written before (`snd_emit`).
-/

namespace SearchSql

/-- Two emitters that differ in what they have written at most. -/
structure Emitter.SamePlace (e e' : Emitter) : Prop where
  settings : e.settings = e'.settings
  depth : e.depth = e'.depth
  base : e.base = e'.base

namespace Writing

/-- At a given depth the writing does what playing the script does, and stops with the same error.
The emitter is back in its place afterwards, even if the writing has failed. -/
def Follows (w : Writing) (depth : Nat) (script : Script) : Prop :=
  ∀ e : Emitter, e.depth = depth →
    (w e).1.SamePlace e ∧
      (w e).2.map (fun _ => (w e).1.draft) =
        script.foldlM (Draft.play e.settings (e.base + 1)) e.draft

variable {depth : ℕ}

/-! ## Single steps -/

theorem follows_text (s : String) : (text s).Follows depth [.text s] :=
  fun _ _ => ⟨⟨rfl, rfl, rfl⟩, rfl⟩

theorem follows_fail (typeName : String) :
    (fail (.unsupported typeName)).Follows depth [.unsupported typeName] :=
  fun _ _ => ⟨⟨rfl, rfl, rfl⟩, rfl⟩

theorem follows_checkLimits : checkLimits.Follows depth [.enter depth] := by
  rintro e rfl
  refine ⟨⟨rfl, rfl, rfl⟩, ?_⟩
  simp only [checkLimits, List.foldlM_cons, List.foldlM_nil, Draft.play]
  cases e.draft.checkLimits e.settings e.depth <;> rfl

theorem follows_value (v : Value) (argument : Option Argument) :
    (value v argument).Follows depth [.slot v argument] := by
  rintro e -
  simp only [value, List.foldlM_cons, List.foldlM_nil, Draft.play]
  cases v.encode with
  | error x => exact ⟨⟨rfl, rfl, rfl⟩, rfl⟩
  | ok literal =>
    by_cases bound : (e.settings.parameterize && literal.kind != .boolean) = true
    · -- The number before the first one is counted from, and the parameter counts already.
      have number : e.base + (e.parameters ++ [literal.value]).length =
          e.base + 1 + e.parameters.length := by
        rw [List.length_append, List.length_singleton]
        omega
      simp only [if_pos bound, Draft.fill, number]
      exact ⟨⟨rfl, rfl, rfl⟩, rfl⟩
    · simp only [if_neg bound, Draft.fill]
      exact ⟨⟨rfl, rfl, rfl⟩, rfl⟩

/-! ## One after the other -/

theorem follows_nil : (all []).Follows depth [] := fun _ _ => ⟨⟨rfl, rfl, rfl⟩, rfl⟩

theorem Follows.cons {w : Writing} {ws : List Writing} {s t : Script} (hw : w.Follows depth s)
    (hws : (all ws).Follows depth t) : (all (w :: ws)).Follows depth (s ++ t) := by
  intro e he
  obtain ⟨place, written⟩ := hw e he
  rw [List.foldlM_append, ← written]
  cases hresult : w e with
  | mk e' result =>
    rw [hresult] at place
    cases result with
    | error x =>
      simp only [all, hresult]
      exact ⟨place, rfl⟩
    | ok u =>
      obtain ⟨later, rest⟩ := hws e' (place.depth.trans he)
      rw [place.settings, place.base] at rest
      simp only [all, hresult]
      refine ⟨⟨later.settings.trans place.settings, later.depth.trans place.depth,
        later.base.trans place.base⟩, ?_⟩
      exact rest

theorem Follows.one {w : Writing} {s : Script} (h : w.Follows depth s) :
    (all [w]).Follows depth s := by
  have alone := h.cons follows_nil
  rw [List.append_nil] at alone
  exact alone

theorem all_append (ws vs : List Writing) : all (ws ++ vs) = all [all ws, all vs] := by
  funext e
  induction ws generalizing e with
  | nil =>
    simp only [List.nil_append, all]
    cases hv : all vs e with
    | mk e' result => cases result <;> rfl
  | cons w ws ih =>
    simp only [List.cons_append, all]
    cases hw : w e with
    | mk e' result =>
      cases result with
      | error x => rfl
      | ok u =>
        simp only [ih e', all]

theorem Follows.append {ws vs : List Writing} {s t : Script} (hws : (all ws).Follows depth s)
    (hvs : (all vs).Follows depth t) : (all (ws ++ vs)).Follows depth (s ++ t) := by
  rw [all_append]
  exact hws.cons hvs.one

theorem follows_commaSeparated {ws : List Writing} {ss : List Script}
    (h : List.Forall₂ (Follows · depth ·) ws ss) :
    (all (commaSeparated ws)).Follows depth (Script.commaSeparated ss) := by
  induction h with
  | nil => exact follows_nil
  | @cons w s ws ss hw hrest ih =>
    cases hrest with
    | nil => exact hw.one
    | cons _ _ => exact hw.cons ((follows_text ", ").cons ih)

theorem follows_row (opening closing : String) {ws : List Writing} {ss : List Script}
    (h : List.Forall₂ (Follows · depth ·) ws ss) :
    (row opening closing ws).Follows depth
      (.text opening :: Script.commaSeparated ss ++ [.text closing]) :=
  ((follows_text opening).cons (follows_commaSeparated h)).append (follows_text closing).one

theorem follows_call (function : String) {ws : List Writing} {ss : List Script}
    (h : List.Forall₂ (Follows · depth ·) ws ss) :
    (call function ws).Follows depth (Script.call function ss) :=
  follows_row (function ++ "(") ")" h

theorem Follows.named (name arrow : String) {w : Writing} {s : Script} (h : w.Follows depth s) :
    (named name arrow w).Follows depth (Script.named name arrow s) :=
  (follows_text (name ++ arrow)).cons h.one

/-- Whatever becomes of the writing, the emitter is as deep as before. -/
theorem Follows.deeper {w : Writing} {s : Script} (h : w.Follows (depth + 1) s) :
    (deeper w).Follows depth (.enter (depth + 1) :: s) := by
  rintro e rfl
  have inner := (follows_checkLimits.cons h.one) { e with depth := e.depth + 1 } rfl
  obtain ⟨place, written⟩ := inner
  refine ⟨⟨place.settings, ?_, place.base⟩, written⟩
  exact congrArg (· - 1) place.depth

end Writing

namespace Style

open Writing

variable {style : Style} {depth : ℕ}

/-! ## Predicates -/

/-- Arguments are given by their names and by what is written for them. -/
def FollowsArguments (depth : ℕ) :
    List (String × Writing) → List (String × Script) → Prop :=
  List.Forall₂ fun w s => w.1 = s.1 ∧ w.2.Follows depth s.2

theorem follows_leaf (function field : String) {ws : List (String × Writing)}
    {ss : List (String × Script)} (h : FollowsArguments depth ws ss) :
    (style.writeLeaf function field ws).Follows depth (style.leaf function field ss) := by
  refine follows_call _ (.cons ((follows_text _).named _ _) ?_)
  refine List.forall₂_map_left_iff.mpr (List.forall₂_map_right_iff.mpr (h.imp ?_))
  rintro ⟨name, w⟩ ⟨_, s⟩ ⟨rfl, hw⟩
  exact hw.named name style.leafArrow

theorem follows_optional (argument : Argument) (v : Option Value) :
    FollowsArguments depth (style.writeOptional argument v) (style.optional argument v) := by
  cases v with
  | none => exact .nil
  | some v => exact .cons ⟨rfl, follows_value v (some argument)⟩ .nil

theorem follows_fuzzyArguments (options : FuzzyOptions) :
    FollowsArguments depth (style.writeFuzzyArguments options) (style.fuzzyArguments options) :=
  List.rel_append (List.rel_append (follows_optional _ _) (follows_optional _ _))
    (follows_optional _ _)

theorem visits_eq_map (ps : List (Predicate Value)) : style.visits ps = ps.map style.visit := by
  induction ps with
  | nil => rfl
  | cons p ps ih => rw [visits, ih, List.map_cons]

/-- Writing a predicate follows its script. Each node goes one level deeper, which the script has
counted beforehand. -/
theorem follows_visit (p : Predicate Value) :
    (style.visit p).Follows depth (style.script (depth + 1) p) := by
  induction p using Predicate.tree_induction generalizing depth with
  | leaf p leaf =>
    have value (v : Value) : FollowsArguments (depth + 1) [("value", .value v none)]
        [("value", [.slot v none])] := .cons ⟨rfl, follows_value v none⟩ .nil
    cases p with
    | parse query => exact (follows_call _ (.cons (follows_value _ none) .nil)).deeper
    | term field v => exact (follows_leaf "term" field (value v)).deeper
    | fuzzy field v options =>
      exact (follows_leaf "fuzzy_term" field
        (.cons ⟨rfl, follows_value _ none⟩ (follows_fuzzyArguments options))).deeper
    | phrase field phrases slop =>
      exact (follows_leaf "phrase" field
        (.cons ⟨rfl, follows_value _ none⟩ (follows_optional _ _))).deeper
    | range field r =>
      exact (follows_leaf "range" field (.cons ⟨rfl, follows_value _ none⟩ .nil)).deeper
    | present field => exact (follows_leaf "exists" field .nil).deeper
    | foreign typeName => exact (follows_fail typeName).deeper
    | boolean => cases leaf
    | boost => cases leaf
  | boolean kind first rest ih =>
    have children : List.Forall₂ (Follows · (depth + 1) ·) (style.visits (first :: rest))
        (style.scripts (depth + 1 + 1) (first :: rest)) := by
      rw [visits_eq_map, scripts_eq_map]
      refine List.forall₂_map_left_iff.mpr (List.forall₂_map_right_iff.mpr ?_)
      exact List.forall₂_same.mpr fun p hp => ih p hp
    have row := follows_row style.arrayOpen style.arrayClose children
    exact (follows_call _ (.cons (row.named kind.name " => ") .nil)).deeper
  | boost query factor ih =>
    exact (follows_call _ (.cons ((follows_value _ _).named "factor" " => ")
      (.cons (ih.named "query" " => ") .nil))).deeper

theorem follows_options (options : Table SearchOption Value) :
    List.Forall₂ (Follows · depth ·) (writeOptions options) (optionArguments options) := by
  unfold writeOptions optionArguments
  induction SearchOption.all with
  | nil => exact .nil
  | cons o rest ih =>
    rw [List.filterMap_cons, List.filterMap_cons]
    cases options.get? o with
    | none => exact ih
    | some v => exact .cons ((follows_value v _).named o.name " => ") ih

theorem follows_searchCall (tree : SearchTree) :
    (style.writeSearchCall tree).Follows 0 (style.searchCall tree) :=
  follows_call _ (.cons ((follows_visit tree.root).named "query" " => ")
    (follows_options tree.options))

end Style

/-- The limits are checked once more at the end, as they are where a predicate begins. -/
theorem SearchTree.emit_eq_map (settings : Settings) (first : Int) (tree : SearchTree) :
    tree.emit settings first =
      ((settings.dialect.style.searchCall tree ++ [Step.enter 0]).foldlM
        (Draft.play settings first) Draft.empty).map fun draft =>
          tree.expression draft.text draft.parameters := by
  rw [SearchTree.emit_eq, Script.play, List.foldlM_append]
  cases (settings.dialect.style.searchCall tree).foldlM (Draft.play settings first)
      Draft.empty with
  | error x => rfl
  | ok draft =>
    simp only [bind, Except.bind, List.foldlM_cons, List.foldlM_nil, Draft.play, finish]
    cases draft.checkLimits settings 0 <;> rfl

namespace Emitter

theorem emit_begin (e : Emitter) (tree : SearchTree) (first : Int) :
    (e.emit tree first).1.settings = e.settings ∧
      (e.emit tree first).2 = tree.emit e.settings first := by
  have call : (e.settings.dialect.style.writeSearchCall tree).Follows 0
      (e.settings.dialect.style.searchCall tree) := Style.follows_searchCall tree
  have follows := call.cons Writing.follows_checkLimits.one
  obtain ⟨place, written⟩ := follows (e.begin first) rfl
  have start : (e.begin first).base + 1 = first := Int.sub_add_cancel first 1
  have clean : (e.begin first).draft = Draft.empty := rfl
  have kept : (e.begin first).settings = e.settings := rfl
  rw [start, clean, kept] at written
  rw [SearchTree.emit_eq_map, ← written, emit]
  cases hwriting : Writing.all [e.settings.dialect.style.writeSearchCall tree, .checkLimits]
      (e.begin first) with
  | mk e' result =>
    rw [hwriting] at place
    cases result with
    | error x => exact ⟨place.settings, rfl⟩
    | ok u => exact ⟨place.settings, rfl⟩

@[simp] theorem settings_emit (e : Emitter) (tree : SearchTree) (first : Int) :
    (e.emit tree first).1.settings = e.settings := (emit_begin e tree first).1

/-- The state that an emitter was left in, by whatever calls and failures, has no part in the next
call. -/
theorem snd_emit (e : Emitter) (tree : SearchTree) (first : Int) :
    (e.emit tree first).2 = tree.emit e.settings first := (emit_begin e tree first).2

end Emitter

end SearchSql
