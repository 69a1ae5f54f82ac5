import Mathlib.Algebra.Order.Group.Int
import SearchSql.Call.Emission

/-!
# Templates

What a script comes to once its values are encoded: fixed text and slots for literals. Playing a
script fills its template or stops at a limit (`play_cases`). A script has no template only if one
of its values is no literal or one of its nodes cannot be written (`exists_template`).
-/

namespace SearchSql

def Value.IsLiteral (v : Value) : Prop := ∃ literal, v.encode = .ok literal

inductive Piece where
  | text (s : String)
  | slot (literal : Literal) (argument : Option Argument)
  deriving DecidableEq

abbrev Template := List Piece

namespace Template

/-- Every literal is written in its place. -/
def inline (style : Style) : Template → String
  | [] => ""
  | .text s :: rest => s ++ inline style rest
  | .slot literal _ :: rest => style.literalText literal ++ inline style rest

/-- Truth values are written in their place; the other slots have placeholders, which are numbered
from `k` on. -/
def bound (style : Style) (k : Int) : Template → String
  | [] => ""
  | .text s :: rest => s ++ bound style k rest
  | .slot literal argument :: rest =>
    if literal.kind = .boolean then style.literalText literal ++ bound style k rest
    else style.placeholder k argument literal ++ bound style (k + 1) rest

/-- The literals of the slots that have placeholders. -/
def boundLiterals : Template → List Literal
  | [] => []
  | .text _ :: rest => boundLiterals rest
  | .slot literal _ :: rest =>
    if literal.kind = .boolean then boundLiterals rest else literal :: boundLiterals rest

def parameters (t : Template) : List Value := t.boundLiterals.map Literal.value

def written (settings : Settings) (first : Int) (t : Template) : String :=
  if settings.parameterize then t.bound settings.dialect.style first
  else t.inline settings.dialect.style

def values (settings : Settings) (t : Template) : List Value :=
  if settings.parameterize then t.parameters else []

end Template

/-- The draft with a whole template filled in behind it. -/
def Draft.extend (settings : Settings) (first : Int) (draft : Draft) (t : Template) : Draft :=
  ⟨draft.text ++ t.written settings (first + draft.parameters.length),
    draft.parameters ++ t.values settings⟩

namespace Draft

variable {settings : Settings} {first : Int}

theorem extend_nil (draft : Draft) : draft.extend settings first [] = draft := by
  cases hp : settings.parameterize <;>
    simp [extend, Template.written, Template.values, Template.bound, Template.inline,
      Template.parameters, Template.boundLiterals, hp]

theorem extend_text (draft : Draft) (s : String) (t : Template) :
    draft.extend settings first (.text s :: t) = (draft.write s).extend settings first t := by
  cases hp : settings.parameterize <;>
    simp [extend, write, Template.written, Template.values, Template.bound, Template.inline,
      Template.parameters, Template.boundLiterals, hp, String.append_assoc]

theorem extend_slot (draft : Draft) (literal : Literal) (argument : Option Argument)
    (t : Template) :
    draft.extend settings first (.slot literal argument :: t) =
      (draft.fill settings first argument literal).extend settings first t := by
  cases hp : settings.parameterize with
  | false =>
    simp [extend, fill, write, Template.written, Template.values, Template.inline, hp,
      String.append_assoc]
  | true =>
    by_cases hk : literal.kind = .boolean
    · simp [extend, fill, write, Template.written, Template.values, Template.bound,
        Template.parameters, Template.boundLiterals, hp, hk, String.append_assoc]
    · simp [extend, fill, writeParameter, Template.written, Template.values, Template.bound,
        Template.parameters, Template.boundLiterals, hp, hk, String.append_assoc, Int.add_assoc]

theorem length_le_extend (draft : Draft) (t : Template) :
    draft.text.length ≤ (draft.extend settings first t).text.length := by
  rw [extend, String.length_append]
  exact Nat.le_add_right _ _

/-- Both limits are checked, that of the depth first. -/
theorem checkLimits_cases (settings : Settings) (depth : Nat) (draft : Draft) :
    (draft.checkLimits settings depth = .ok () ∧ depth ≤ settings.maxDepth ∧
      draft.text.length ≤ settings.maxLength) ∨
    (settings.maxDepth < depth ∧
      draft.checkLimits settings depth = .error (.depth depth settings.maxDepth)) ∨
    (settings.maxLength < draft.text.length ∧
      draft.checkLimits settings depth = .error (.length settings.maxLength)) := by
  unfold checkLimits
  by_cases hd : settings.maxDepth < depth
  · exact Or.inr (Or.inl ⟨hd, if_pos hd⟩)
  by_cases hl : settings.maxLength < draft.text.length
  · exact Or.inr (Or.inr ⟨hl, by rw [if_neg hd, if_pos hl]⟩)
  · exact Or.inl ⟨by rw [if_neg hd, if_neg hl], not_lt.mp hd, not_lt.mp hl⟩

end Draft

namespace Script

/-- The template of a script, if all its values are literals and all its nodes can be written. -/
def template? : Script → Option Template
  | [] => some []
  | .text s :: rest => (template? rest).map (.text s :: ·)
  | .enter _ :: rest => template? rest
  | .slot v argument :: rest =>
    match v.encode with
    | .ok literal => (template? rest).map (.slot literal argument :: ·)
    | .error _ => none
  | .unsupported _ :: _ => none

/-- Induction over a script and its template side by side. -/
@[elab_as_elim]
theorem template_induction
    {motive : (script : Script) → (t : Template) → script.template? = some t → Prop}
    (nil : motive [] [] rfl)
    (text : ∀ s rest t (h : template? rest = some t), motive rest t h →
      motive (.text s :: rest) (.text s :: t) (by rw [template?, h]; rfl))
    (enter : ∀ d rest t (h : template? rest = some t), motive rest t h →
      motive (.enter d :: rest) t h)
    (slot : ∀ v argument literal rest t (hv : v.encode = .ok literal)
      (h : template? rest = some t), motive rest t h →
      motive (.slot v argument :: rest) (.slot literal argument :: t)
        (by simp only [template?, hv, h, Option.map_some]))
    (script : Script) (t : Template) (h : script.template? = some t) : motive script t h := by
  induction script generalizing t with
  | nil =>
    cases h
    exact nil
  | cons step rest ih =>
    cases step with
    | text s =>
      obtain ⟨t, ht, rfl⟩ := Option.map_eq_some_iff.mp h
      exact text s rest t ht (ih t ht)
    | enter d => exact enter d rest t h (ih t h)
    | slot v argument =>
      cases hv : v.encode with
      | error e => simp [template?, hv] at h
      | ok literal =>
        have h' := h
        simp only [template?, hv] at h'
        obtain ⟨t, ht, rfl⟩ := Option.map_eq_some_iff.mp h'
        exact slot v argument literal rest t hv ht (ih t ht)
    | unsupported n => cases h

theorem exists_template {script : Script}
    (values : ∀ v argument, .slot v argument ∈ script → v.IsLiteral)
    (known : ∀ typeName, .unsupported typeName ∉ script) :
    ∃ t, script.template? = some t := by
  induction script with
  | nil => exact ⟨[], rfl⟩
  | cons step rest ih =>
    obtain ⟨t, ht⟩ := ih (fun v a m => values v a (List.mem_cons_of_mem _ m))
      (fun n m => known n (List.mem_cons_of_mem _ m))
    cases step with
    | text s => exact ⟨.text s :: t, by simp [template?, ht]⟩
    | enter d => exact ⟨t, ht⟩
    | slot v argument =>
      obtain ⟨literal, hv⟩ := values v argument List.mem_cons_self
      exact ⟨.slot literal argument :: t, by simp [template?, ht, hv]⟩
    | unsupported n => exact absurd List.mem_cons_self (known n)

variable {settings : Settings} {first : Int}

/-- A script that has a template fills it, unless it stops at one of the limits, which is then
really exceeded. -/
theorem play_cases {script : Script} {t : Template} (h : script.template? = some t)
    (draft : Draft) :
    script.foldlM (Draft.play settings first) draft = .ok (draft.extend settings first t) ∨
    (∃ d : ℕ, .enter d ∈ script ∧ settings.maxDepth < d ∧
      script.foldlM (Draft.play settings first) draft = .error (.depth d settings.maxDepth)) ∨
    (settings.maxLength < (draft.extend settings first t).text.length ∧
      script.foldlM (Draft.play settings first) draft = .error (.length settings.maxLength)) := by
  induction script, t, h using template_induction generalizing draft with
  | nil =>
    rw [Draft.extend_nil]
    exact Or.inl rfl
  | text s rest t _ ih =>
    rw [List.foldlM_cons, Draft.extend_text]
    rcases ih (draft.write s) with filled | ⟨d, hd, deep⟩ | long
    · exact Or.inl filled
    · exact Or.inr (Or.inl ⟨d, List.mem_cons_of_mem _ hd, deep⟩)
    · exact Or.inr (Or.inr long)
  | enter d rest t _ ih =>
    rw [List.foldlM_cons, Draft.play]
    rcases Draft.checkLimits_cases settings d draft with ⟨hok, -⟩ | ⟨hd, herr⟩ | ⟨hl, herr⟩
    · rw [hok]
      rcases ih draft with filled | ⟨d', hd', deep⟩ | long
      · exact Or.inl filled
      · exact Or.inr (Or.inl ⟨d', List.mem_cons_of_mem _ hd', deep⟩)
      · exact Or.inr (Or.inr long)
    · rw [herr]
      exact Or.inr (Or.inl ⟨d, List.mem_cons_self, hd, rfl⟩)
    · rw [herr]
      refine Or.inr (Or.inr ⟨?_, rfl⟩)
      exact lt_of_lt_of_le hl (Int.ofNat_le.mpr (Draft.length_le_extend draft t))
  | slot v argument literal rest t hv _ ih =>
    rw [List.foldlM_cons, Draft.extend_slot, Draft.play, hv]
    rcases ih (draft.fill settings first argument literal) with filled | ⟨d, hd, deep⟩ | long
    · exact Or.inl filled
    · exact Or.inr (Or.inl ⟨d, List.mem_cons_of_mem _ hd, deep⟩)
    · exact Or.inr (Or.inr long)

/-- What is played to the end has a template. -/
theorem exists_template_of_play {script : Script} {draft draft' : Draft}
    (h : script.foldlM (Draft.play settings first) draft = .ok draft') :
    ∃ t, script.template? = some t := by
  induction script generalizing draft with
  | nil => exact ⟨[], rfl⟩
  | cons step rest ih =>
    rw [List.foldlM_cons] at h
    cases step with
    | text s =>
      obtain ⟨t, ht⟩ := ih h
      exact ⟨.text s :: t, by simp [template?, ht]⟩
    | enter d =>
      rcases Draft.checkLimits_cases settings d draft with ⟨hok, -⟩ | ⟨-, herr⟩ | ⟨-, herr⟩
      · rw [Draft.play, hok] at h
        exact ih h
      · rw [Draft.play, herr] at h
        cases h
      · rw [Draft.play, herr] at h
        cases h
    | slot v argument =>
      cases hv : v.encode with
      | error e =>
        rw [Draft.play, hv] at h
        cases h
      | ok literal =>
        rw [Draft.play, hv] at h
        obtain ⟨t, ht⟩ := ih h
        exact ⟨.slot literal argument :: t, by simp [template?, ht, hv]⟩
    | unsupported n => cases h

/-- The step at which a script stops. -/
theorem exists_step_of_play_error {script : Script} {draft : Draft} {e : EmissionError}
    (h : script.foldlM (Draft.play settings first) draft = .error e) :
    ∃ step ∈ script, ∃ draft', Draft.play settings first draft' step = .error e := by
  induction script generalizing draft with
  | nil => cases h
  | cons step rest ih =>
    rw [List.foldlM_cons] at h
    cases hs : Draft.play settings first draft step with
    | error e' =>
      rw [hs] at h
      cases h
      exact ⟨step, List.mem_cons_self, draft, hs⟩
    | ok next =>
      rw [hs] at h
      obtain ⟨step', hmem, draft', herr⟩ := ih h
      exact ⟨step', List.mem_cons_of_mem _ hmem, draft', herr⟩

end Script

/-- The ways in which a single step fails. -/
theorem Draft.play_error {settings : Settings} {first : Int} {draft : Draft} {step : Step}
    {e : EmissionError} (h : Draft.play settings first draft step = .error e) :
    (∃ d, e = .depth d settings.maxDepth) ∨ e = .length settings.maxLength ∨
    (∃ n, step = .unsupported n ∧ e = .unsupported n) ∨
    (∃ v argument, step = .slot v argument ∧ ¬ v.IsLiteral) := by
  cases step with
  | text s => cases h
  | enter d =>
    rcases checkLimits_cases settings d draft with ⟨hok, -⟩ | ⟨-, herr⟩ | ⟨-, herr⟩
    · rw [play, hok] at h
      cases h
    · rw [play, herr] at h
      cases h
      exact Or.inl ⟨d, rfl⟩
    · rw [play, herr] at h
      cases h
      exact Or.inr (Or.inl rfl)
  | slot v argument =>
    refine Or.inr (Or.inr (Or.inr ⟨v, argument, rfl, ?_⟩))
    rintro ⟨literal, hv⟩
    rw [play, hv] at h
    cases h
  | unsupported n =>
    cases h
    exact Or.inr (Or.inr (Or.inl ⟨n, rfl, rfl⟩))

end SearchSql
