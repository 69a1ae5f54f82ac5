import Mathlib.Data.List.Infix
import SearchSql.Catalog.Split

/-!
# Splitting a joined list

A text closes if each of its quotes and parentheses is closed and commas stand inside them only. A
reader that has gone through such a text stands where it stood before, so a list of them that is
joined by commas is split into them again (`splitTopLevel_join`).
-/

namespace SearchSql.Catalog

def isQuote (c : Char) : Bool := c = Text.apostrophe || c = Text.quotationMark

/-- What stands outside quotes in a text, of which the first may be open already. There is no answer
if the last one stays open. -/
def outside? : Option Char → List Char → Option (List Char)
  | none, [] => some []
  | some _, [] => none
  | none, c :: s => if isQuote c then outside? (some c) s else (outside? none s).map (c :: ·)
  | some q, c :: s => if c = q then outside? none s else outside? (some q) s

/-- How many more parentheses are opened than closed. -/
def level (s : List Char) : Int := s.count '(' - s.count ')'

/-- The parentheses of a text without quotes are balanced, none is closed before it is opened, and
commas stand inside them only. -/
structure IsBalanced (s : List Char) : Prop where
  closed : level s = 0
  opened : ∀ before, before <+: s → 0 ≤ level before
  commas : ∀ before, before ++ [','] <+: s → 0 < level before

/-- All quotes of a text are closed, and what stands outside of them is balanced. -/
def Closes (s : List Char) : Prop := ∃ t ∈ outside? none s, IsBalanced t

/-! ## Reading through a text -/

@[simp] theorem level_nil : level [] = 0 := rfl

/-- What a character adds to the depth, unless it stands in a quote. -/
def rise (c : Char) : Int := if c = '(' then 1 else if c = ')' then -1 else 0

theorem level_cons (c : Char) (s : List Char) : level (c :: s) = rise c + level s := by
  unfold level rise
  rw [List.count_cons, List.count_cons]
  by_cases opens : c = '('
  · subst opens
    simp
    omega
  by_cases closes : c = ')'
  · subst closes
    simp
    omega
  · simp [opens, closes]

theorem step_of_not_isQuote {d : Int} {c : Char} (h : isQuote c = false) :
    Place.step ⟨d, none⟩ c = ⟨d + rise c, none⟩ := by
  simp only [isQuote, Bool.or_eq_false_iff, decide_eq_false_iff_not] at h
  simp only [Place.step, h.1, h.2, or_self, if_false, rise]
  by_cases opens : c = '('
  · simp [opens]
  by_cases closes : c = ')'
  · simp [closes, Int.sub_eq_add_neg]
  · simp [opens, closes]

theorem step_inside (d : Int) (q c : Char) :
    Place.step ⟨d, some q⟩ c = if c = q then ⟨d, none⟩ else ⟨d, some q⟩ := rfl

theorem step_of_isQuote {d : Int} {c : Char} (h : isQuote c = true) :
    Place.step ⟨d, none⟩ c = ⟨d, some c⟩ := by
  have quotes : c = Text.apostrophe ∨ c = Text.quotationMark := by simpa [isQuote] using h
  simp only [Place.step, if_pos quotes]

theorem cut_step {p : Place} {c : Char} (h : c = ',' → p.isTop = false)
    (current s : List Char) : cut p current (c :: s) = cut (p.step c) (current ++ [c]) s := by
  rw [cut, if_neg]
  rintro ⟨comma, top⟩
  rw [h comma] at top
  cases top

/-- A reader that meets no comma at the top level goes through the text. The depth it comes to is
told by what stands outside quotes. -/
theorem cut_append {d : Int} {quote : Option Char} {current s t : List Char}
    (hout : outside? quote s = some t)
    (commas : ∀ before, before ++ [','] <+: t → d + level before ≠ 0) (rest : List Char) :
    cut ⟨d, quote⟩ current (s ++ rest) = cut ⟨d + level t, none⟩ (current ++ s) rest := by
  induction s generalizing d quote current t with
  | nil =>
    cases quote with
    | none =>
      cases hout
      simp
    | some q => cases hout
  | cons c s ih =>
    rw [List.cons_append, List.append_cons current c s]
    cases quote with
    | some q =>
      rw [cut_step fun _ => by simp [Place.isTop], step_inside]
      rw [outside?] at hout
      by_cases closing : c = q
      · rw [if_pos closing] at hout ⊢
        exact ih hout commas
      · rw [if_neg closing] at hout ⊢
        exact ih hout commas
    | none =>
      rw [outside?] at hout
      by_cases opening : isQuote c = true
      · rw [if_pos opening] at hout
        have comma : c ≠ ',' := by
          rintro rfl
          cases opening
        rw [cut_step fun h => absurd h comma, step_of_isQuote opening]
        exact ih hout commas
      · rw [if_neg opening, Option.map_eq_some_iff] at hout
        obtain ⟨t, hout, rfl⟩ := hout
        have inside : c = ',' → Place.isTop ⟨d, none⟩ = false := by
          rintro rfl
          have away := commas [] (by simp)
          simpa [Place.isTop] using away
        rw [cut_step inside, step_of_not_isQuote (by simpa using opening), level_cons,
          ← Int.add_assoc]
        refine ih hout ?_
        intro before hbefore
        have away := commas (c :: before) (List.cons_prefix_cons.mpr ⟨rfl, hbefore⟩)
        rwa [level_cons, ← Int.add_assoc] at away

theorem Closes.cut_append {s : List Char} (h : Closes s) (current rest : List Char) :
    cut .start current (s ++ rest) = cut .start (current ++ s) rest := by
  obtain ⟨t, hout, balanced⟩ := h
  have inside : ∀ before, before ++ [','] <+: t → 0 + level before ≠ 0 := by
    intro before hb
    have := balanced.commas before hb
    omega
  have through : cut ⟨0, none⟩ current (s ++ rest) = _ := Catalog.cut_append hout inside rest
  rwa [balanced.closed] at through

/-! ## Texts that close -/

theorem outside?_eq_self {s : List Char} (h : ∀ c ∈ s, isQuote c = false) :
    outside? none s = some s := by
  induction s with
  | nil => rfl
  | cons c s ih =>
    obtain ⟨first, others⟩ := List.forall_mem_cons.mp h
    rw [outside?, if_neg (by simp [first]), ih others, Option.map_some]

theorem outside?_concat {q : Char} {s : List Char} (h : q ∉ s) :
    outside? (some q) (s ++ [q]) = some [] := by
  induction s with
  | nil => exact if_pos rfl
  | cons c s ih =>
    rw [List.cons_append, outside?, if_neg (List.ne_of_not_mem_cons h).symm]
    exact ih (List.not_mem_of_not_mem_cons h)

theorem isBalanced_of_notMem {s : List Char} (opening : '(' ∉ s) (closing : ')' ∉ s)
    (parting : ',' ∉ s) : IsBalanced s := by
  have flat : ∀ before, before <+: s → level before = 0 := by
    intro before hb
    have inside {c : Char} (h : c ∉ s) : c ∉ before := fun hc => h (hb.subset hc)
    rw [level, List.count_eq_zero_of_not_mem (inside opening),
      List.count_eq_zero_of_not_mem (inside closing)]
    rfl
  refine ⟨flat s (List.prefix_refl s), fun before hb => Int.le_of_eq (flat before hb).symm, ?_⟩
  intro before hb
  exact absurd (hb.subset (List.mem_append_right _ List.mem_cons_self)) parting

/-- Balance by position: what stands before each one is a text that begins this one. -/
theorem isBalanced_iff_take {s : List Char} :
    IsBalanced s ↔ level s = 0 ∧ (∀ i ≤ s.length, 0 ≤ level (s.take i)) ∧
      ∀ i < s.length, s[i]? = some ',' → 0 < level (s.take i) := by
  constructor
  · rintro ⟨closed, opened, commas⟩
    refine ⟨closed, fun i _ => opened _ (List.take_prefix i s), ?_⟩
    intro i _ hcomma
    refine commas _ ?_
    have next : s.take i ++ [','] = s.take (i + 1) := by
      rw [List.take_add_one, hcomma, Option.toList_some]
    exact next ▸ List.take_prefix (i + 1) s
  · rintro ⟨closed, opened, commas⟩
    refine ⟨closed, ?_, ?_⟩
    · rintro before ⟨rest, rfl⟩
      simpa using opened before.length (by simp)
    · rintro before ⟨rest, rfl⟩
      simpa using commas before.length (by simp) (by simp)

instance : DecidablePred IsBalanced := fun _ => decidable_of_iff _ isBalanced_iff_take.symm

instance : DecidablePred Closes := fun _ => inferInstanceAs (Decidable (∃ _ ∈ _, IsBalanced _))

/-! ## Joined lists -/

/-- The text between two items, with a space behind the comma. -/
def comma : List Char := [',', ' ']

/-- The texts as items: without the blanks around them and without empty ones. -/
def tidyItems (texts : List (List Char)) : List (List Char) :=
  (texts.map Text.trim).filter (! ·.isEmpty)

theorem tidyItems_cons (text : List Char) (texts : List (List Char)) :
    tidyItems (text :: texts) =
      (if (Text.trim text).isEmpty then [] else [Text.trim text]) ++ tidyItems texts := by
  rw [tidyItems, List.map_cons, List.filter_cons]
  cases (Text.trim text).isEmpty <;> rfl

theorem tidyItems_eq_self {items : List (List Char)}
    (tidy : ∀ item ∈ items, item ≠ [] ∧ Text.trim item = item) : tidyItems items = items := by
  have trimmed : items.map Text.trim = items :=
    (List.map_congr_left fun item hitem => (tidy item hitem).2).trans (List.map_id items)
  rw [tidyItems, trimmed, List.filter_eq_self]
  intro item hitem
  simpa using (tidy item hitem).1

theorem trim_blank_cons (s : List Char) : Text.trim (' ' :: s) = Text.trim s := by
  have blank : Text.isBlank ' ' = true := by decide
  rw [Text.trim, Text.trim, Text.trimBy, Text.trimBy, List.dropWhile_cons_of_pos blank]

theorem tidyItems_cut {first : List Char} {items : List (List Char)}
    (closed : ∀ item ∈ first :: items, Closes item) (current : List Char) :
    tidyItems (cut .start current (comma.intercalate (first :: items))) =
      tidyItems ((current ++ first) :: items) := by
  induction items generalizing first current with
  | nil =>
    have here := (closed first List.mem_cons_self).cut_append current []
    rw [List.append_nil] at here
    rw [List.intercalate_singleton, here, cut]
    by_cases empty : (current ++ first).isEmpty = true
    · rw [if_pos empty, List.isEmpty_iff.mp empty]
      rfl
    · rw [if_neg empty]
  | cons second items ih =>
    obtain ⟨hfirst, closed⟩ := List.forall_mem_cons.mp closed
    have top : ',' = ',' ∧ Place.isTop .start = true := ⟨rfl, rfl⟩
    have blank : cut .start [] (' ' :: comma.intercalate (second :: items)) =
        cut .start [' '] (comma.intercalate (second :: items)) := rfl
    rw [List.intercalate_cons_cons, List.append_assoc, hfirst.cut_append, comma,
      List.cons_append, cut, if_pos top, List.singleton_append, tidyItems_cons, ← comma, blank,
      ih closed [' '], tidyItems_cons _ (second :: items), tidyItems_cons, tidyItems_cons,
      List.singleton_append, trim_blank_cons]

/-- A list of texts that close is split into them, up to blanks around them and empty ones. -/
theorem splitTopLevel_join {items : List (List Char)} (closed : ∀ item ∈ items, Closes item) :
    splitTopLevel (comma.intercalate items) = tidyItems items := by
  cases items with
  | nil => rfl
  | cons first items => exact tidyItems_cut closed []

end SearchSql.Catalog
