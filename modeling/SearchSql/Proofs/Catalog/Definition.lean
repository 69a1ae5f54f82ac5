import Mathlib.Data.List.TakeWhile
import SearchSql.Catalog.Definition
import SearchSql.Proofs.Catalog.Split
import SearchSql.Proofs.Schema.Identifier
import SearchSql.Proofs.Text.Parting

/-!
# Where the parts of a definition are found

The columns of a definition begin behind the first place where `USING bm25 (` stands, in letters of
either case and with any blanks. They end at the first closing parenthesis behind which the
definition ends or options begin. If neither stands where it should not, just the columns are found
(`readParts?_definition`).
-/

namespace SearchSql.Catalog

/-- A text is a word but for the case of its letters. -/
def IsCased (word : String) (s : List Char) : Prop := s.map foldCase = word.toList

def IsBlanks (s : List Char) : Prop := ∀ c ∈ s, Text.isBlank c = true

/-- `USING bm25 (` with blanks, of which those before the parenthesis may be missing. -/
inductive IsOpening : List Char → Prop where
  | intro {word blanks method gap : List Char} (isWord : IsCased "using" word)
    (areBlanks : IsBlanks blanks) (parted : blanks ≠ []) (isMethod : IsCased "bm25" method)
    (isGap : IsBlanks gap) : IsOpening (word ++ (blanks ++ (method ++ (gap ++ ['(']))))

/-- `) WITH (` with blanks, of which those before the second parenthesis may be missing. -/
inductive IsTurn : List Char → Prop where
  | intro {blanks word gap : List Char} (areBlanks : IsBlanks blanks) (parted : blanks ≠ [])
    (isWord : IsCased "with" word) (isGap : IsBlanks gap) :
    IsTurn (')' :: (blanks ++ (word ++ (gap ++ ['(']))))

/-! ## Words and blanks -/

/-- The letters that fold beyond their case are of no common kind. -/
theorem foldCase_eq_toLower {p : Char → Bool}
    (apart : foldedLetters.all (fun folded => ! p folded.1) = true) {c : Char} (h : p c = true) :
    foldCase c = c.toLower := by
  have unlisted : foldedLetters.lookup c = none := by
    rw [List.lookup_eq_none_iff]
    intro folded hfolded
    have other := List.all_eq_true.mp apart folded hfolded
    rw [bne_iff_ne]
    rintro rfl
    rw [h] at other
    cases other
  rw [foldCase, unlisted, Option.getD_none]

theorem foldCase_of_isBlank {c : Char} (h : Text.isBlank c = true) : foldCase c = c := by
  have small : c.isUpper = false := by
    rw [Bool.eq_false_iff]
    intro upper
    obtain ⟨low, high⟩ := Text.isUpper_iff.mp upper
    simp only [Text.isBlank, Text.inSpans_eq_true, Text.blankSpans, List.mem_cons,
      List.not_mem_nil, or_false, exists_eq_or_imp, exists_eq_left] at h
    omega
  rw [foldCase_eq_toLower (by decide) h, Text.toLower_eq_self small]

theorem afterWord?_eq_some_iff {word s rest : List Char} :
    afterWord? word s = some rest ↔ ∃ w, w.map foldCase = word ∧ s = w ++ rest := by
  induction word generalizing s with
  | nil => simp [afterWord?, eq_comm]
  | cons d word ih =>
    cases s with
    | nil => simp [afterWord?, eq_comm]
    | cons c s =>
      rw [afterWord?]
      by_cases same : foldCase c = d
      · rw [if_pos same, ih]
        constructor
        · rintro ⟨w, rfl, rfl⟩
          exact ⟨c :: w, by rw [List.map_cons, same], rfl⟩
        · rintro ⟨w, hw, split⟩
          cases w with
          | nil => cases hw
          | cons c' w =>
            cases split
            exact ⟨w, (List.cons.inj hw).2, rfl⟩
      · rw [if_neg same]
        refine iff_of_false nofun ?_
        rintro ⟨w, hw, split⟩
        cases w with
        | nil => cases hw
        | cons c' w =>
          cases split
          exact same (List.cons.inj hw).1

theorem afterChar?_eq_some_iff {mark : Char} {s rest : List Char} :
    afterChar? mark s = some rest ↔ s = mark :: rest := by
  cases s with
  | nil => simp [afterChar?]
  | cons c s => simp [afterChar?]

theorem skipBlanks_append {blanks rest : List Char} (hblanks : IsBlanks blanks)
    (hrest : StopsAt Text.isBlank rest) : skipBlanks (blanks ++ rest) = rest :=
  dropWhile_part hblanks hrest

theorem exists_skipBlanks (s : List Char) :
    ∃ blanks, IsBlanks blanks ∧ s = blanks ++ skipBlanks s :=
  ⟨s.takeWhile Text.isBlank, fun _ => List.mem_takeWhile_imp,
    List.takeWhile_append_dropWhile.symm⟩

theorem afterBlanks?_append {blanks rest : List Char} (hblanks : IsBlanks blanks)
    (parted : blanks ≠ []) (hrest : StopsAt Text.isBlank rest) :
    afterBlanks? (blanks ++ rest) = some rest := by
  cases blanks with
  | nil => exact absurd rfl parted
  | cons c blanks =>
    obtain ⟨first, others⟩ := List.forall_mem_cons.mp hblanks
    rw [List.cons_append, afterBlanks?, if_pos first, skipBlanks_append others hrest]

theorem exists_afterBlanks? {s rest : List Char} (h : afterBlanks? s = some rest) :
    ∃ blanks, IsBlanks blanks ∧ blanks ≠ [] ∧ s = blanks ++ rest := by
  cases s with
  | nil => cases h
  | cons c s =>
    rw [afterBlanks?] at h
    by_cases blank : Text.isBlank c = true
    · rw [if_pos blank] at h
      cases h
      obtain ⟨blanks, hblanks, split⟩ := exists_skipBlanks s
      exact ⟨c :: blanks, List.forall_mem_cons.mpr ⟨blank, hblanks⟩, List.cons_ne_nil _ _,
        by rw [List.cons_append, ← split]⟩
    · rw [if_neg blank] at h
      cases h

/-- A letter in either case is no blank. -/
theorem not_isBlank_of_foldCase {c d : Char} (h : foldCase c = d) (solid : Text.isBlank d = false) :
    Text.isBlank c = false := by
  rw [Bool.eq_false_iff]
  intro blank
  rw [foldCase_of_isBlank blank] at h
  subst h
  rw [blank] at solid
  cases solid

theorem IsCased.stopsAt {word : String} {w : List Char} (h : IsCased word w)
    (first : ∃ d ∈ word.toList.head?, Text.isBlank d = false) (rest : List Char) :
    StopsAt Text.isBlank (w ++ rest) := by
  obtain ⟨d, hd, solid⟩ := first
  rw [← h, List.head?_map, Option.mem_def, Option.map_eq_some_iff] at hd
  obtain ⟨c, hc, hd⟩ := hd
  obtain ⟨w, rfl⟩ := List.head?_eq_some_iff.mp hc
  exact stopsAt_cons (not_isBlank_of_foldCase hd solid)

/-! ## Openings -/

theorem exists_opening {s rest : List Char} (h : afterOpening? s = some rest) :
    ∃ opening, IsOpening opening ∧ s = opening ++ rest := by
  simp only [afterOpening?, Option.bind_eq_bind, Option.bind_eq_some_iff] at h
  obtain ⟨_, hword, _, hblanks, _, hmethod, h⟩ := h
  obtain ⟨word, isWord, rfl⟩ := afterWord?_eq_some_iff.mp hword
  obtain ⟨blanks, areBlanks, parted, rfl⟩ := exists_afterBlanks? hblanks
  obtain ⟨method, isMethod, rfl⟩ := afterWord?_eq_some_iff.mp hmethod
  obtain ⟨gap, isGap, hgap⟩ := exists_skipBlanks _
  rw [afterChar?_eq_some_iff.mp h] at hgap
  subst hgap
  exact ⟨_, .intro isWord areBlanks parted isMethod isGap, by simp⟩

theorem IsOpening.afterOpening? {opening : List Char} (h : IsOpening opening)
    (rest : List Char) : afterOpening? (opening ++ rest) = some rest := by
  cases h with
  | @intro word blanks method gap isWord areBlanks parted isMethod isGap =>
    have solid : StopsAt Text.isBlank ('(' :: rest) := stopsAt_cons (by decide)
    have later := isMethod.stopsAt ⟨'b', by decide, by decide⟩ (gap ++ '(' :: rest)
    simp only [Catalog.afterOpening?, List.append_assoc, List.singleton_append, Option.bind_eq_bind,
      Option.bind_eq_some_iff]
    exact ⟨_, afterWord?_eq_some_iff.mpr ⟨word, isWord, rfl⟩, _,
      afterBlanks?_append areBlanks parted later, _,
      afterWord?_eq_some_iff.mpr ⟨method, isMethod, rfl⟩,
      afterChar?_eq_some_iff.mpr (skipBlanks_append isGap solid)⟩

theorem IsCased.mem {word : String} {w : List Char} (h : IsCased word w) {c : Char} (hc : c ∈ w) :
    foldCase c ∈ word.toList := by
  rw [← h]
  exact List.mem_map_of_mem hc

/-- The parenthesis at the end of an opening is its only one. -/
theorem IsOpening.exists_body {opening : List Char} (h : IsOpening opening) :
    ∃ body, opening = body ++ ['('] ∧ '(' ∉ body := by
  cases h with
  | @intro word blanks method gap isWord areBlanks parted isMethod isGap =>
    refine ⟨word ++ (blanks ++ (method ++ gap)), by simp, ?_⟩
    simp only [List.mem_append, not_or]
    refine ⟨?_, ?_, ?_, ?_⟩
    · exact fun h => absurd (isWord.mem h) (by decide)
    · exact fun h => absurd (areBlanks _ h) (by decide)
    · exact fun h => absurd (isMethod.mem h) (by decide)
    · exact fun h => absurd (isGap _ h) (by decide)

/-- No opening stands in a text without an opening parenthesis. -/
theorem IsOpening.not_infix {opening s : List Char} (h : IsOpening opening) (hs : '(' ∉ s) :
    ¬ opening <:+: s := by
  intro inside
  obtain ⟨body, rfl, -⟩ := h.exists_body
  exact hs (inside.subset (List.mem_append_right _ List.mem_cons_self))

/-- An opening begins with the only `u` in it. -/
theorem IsOpening.exists_tail {opening : List Char} (h : IsOpening opening) :
    ∃ c rest, opening = c :: rest ∧ foldCase c = 'u' ∧ ∀ d ∈ rest, foldCase d ≠ 'u' := by
  have blank {s : List Char} (hs : IsBlanks s) : ∀ d ∈ s, foldCase d ≠ 'u' := by
    intro d hd
    rw [foldCase_of_isBlank (hs d hd)]
    rintro rfl
    exact absurd (hs _ hd) (by decide)
  cases h with
  | @intro word blanks method gap isWord areBlanks parted isMethod isGap =>
    cases word with
    | nil => cases isWord
    | cons c word =>
      obtain ⟨first, others⟩ := List.cons.inj (isWord : foldCase c :: word.map foldCase = _)
      refine ⟨c, word ++ (blanks ++ (method ++ (gap ++ ['(']))), rfl, first, ?_⟩
      simp only [List.forall_mem_append, List.forall_mem_singleton]
      refine ⟨?_, blank areBlanks, ?_, blank isGap, by decide⟩
      · intro d hd same
        have inside : 'u' ∈ word.map foldCase := same ▸ List.mem_map_of_mem hd
        rw [others] at inside
        exact absurd inside (by decide)
      · intro d hd same
        exact absurd (same ▸ isMethod.mem hd) (by decide)

/-- Two openings that overlap are one. -/
theorem IsOpening.eq_nil_of_append {before opening other rest rest' : List Char}
    (h : IsOpening opening) (h' : IsOpening other) (outside : ¬ other <+: before)
    (same : before ++ (opening ++ rest) = other ++ rest') : before = [] := by
  rcases List.append_eq_append_iff.mp same with ⟨more, rfl, later⟩ | ⟨more, rfl, -⟩
  · obtain ⟨body, rfl, unopened⟩ := h.exists_body
    obtain ⟨body', ends, unopened'⟩ := h'.exists_body
    rcases List.eq_nil_or_concat more with rfl | ⟨more, c, rfl⟩
    · rw [List.append_nil] at outside
      exact absurd (List.prefix_refl _) outside
    rw [List.concat_eq_append, ← List.append_assoc] at ends
    obtain ⟨rfl, hc⟩ := List.append_inj' ends rfl
    cases hc
    -- Both end at the first parenthesis, so one is the end of the other and has its only `u`.
    rw [List.concat_eq_append, List.append_assoc, List.append_assoc] at later
    have inside : '(' ∉ more := fun hm => unopened' (List.mem_append_right _ hm)
    obtain ⟨rfl, -⟩ := before_inj unopened inside later
    obtain ⟨c, tail, split, first, others⟩ := h'.exists_tail
    obtain ⟨c', tail', split', first', -⟩ := h.exists_tail
    cases before with
    | nil => rfl
    | cons d before =>
      rw [List.concat_eq_append, split', List.cons_append] at split
      cases split
      exact absurd first' (others c' (List.mem_append_right _ List.mem_cons_self))
  · exact absurd (List.prefix_append _ _) outside

/-- Columns are looked for behind the first opening. -/
theorem readParts?_append {before opening rest : List Char} {parts : Parts}
    (h : IsOpening opening) (first : ∀ other, IsOpening other → ¬ other <:+: before)
    (columns : readColumns? [] rest = some parts) :
    readParts? (before ++ (opening ++ rest)) = some parts := by
  induction before with
  | nil =>
    obtain ⟨c, tail, split, -⟩ := h.exists_tail
    have here := h.afterOpening? rest
    rw [split, List.cons_append] at here
    rw [List.nil_append, split, List.cons_append, readParts?, here, Option.bind_some, columns]
  | cons c before ih =>
    have none : afterOpening? (c :: (before ++ (opening ++ rest))) = none := by
      by_contra some
      obtain ⟨rest', hopening⟩ := Option.ne_none_iff_exists'.mp some
      obtain ⟨other, hother, split⟩ := exists_opening hopening
      have outside : ¬ other <+: c :: before := fun h => first other hother h.isInfix
      cases h.eq_nil_of_append hother outside split
    rw [List.cons_append, readParts?, none, Option.bind_none]
    exact ih fun other hother inside => first other hother (List.infix_cons inside)

/-! ## The end of the columns -/

theorem beforeClosing?_append (s : List Char) : beforeClosing? (s ++ [')']) = some s := by
  have solid : ¬ Text.isBlank ')' = true := by decide
  rw [beforeClosing?, List.reverse_append, List.reverse_singleton, List.singleton_append,
    List.dropWhile_cons_of_neg solid]
  exact congrArg some s.reverse_reverse

theorem readTail?_options {turn : List Char} (h : IsTurn (')' :: turn)) (options : List Char) :
    readTail? (turn ++ (options ++ [')'])) = some (some options) := by
  cases h with
  | @intro blanks word gap areBlanks parted isWord isGap =>
    have later := isWord.stopsAt ⟨'w', by decide, by decide⟩ (gap ++ '(' :: (options ++ [')']))
    have solid : StopsAt Text.isBlank ('(' :: (options ++ [')'])) := stopsAt_cons (by decide)
    have found : (do
        let s ← afterBlanks? (blanks ++ (word ++ (gap ++ '(' :: (options ++ [')']))))
        let s ← afterWord? "with".toList s
        let s ← afterChar? '(' (skipBlanks s)
        beforeClosing? s) = some options := by
      simp only [Option.bind_eq_bind, Option.bind_eq_some_iff]
      exact ⟨_, afterBlanks?_append areBlanks parted later, _,
        afterWord?_eq_some_iff.mpr ⟨word, isWord, rfl⟩, _,
        afterChar?_eq_some_iff.mpr (skipBlanks_append isGap solid), beforeClosing?_append options⟩
    simp only [List.append_assoc, List.singleton_append, readTail?, found]

/-- Where neither the definition ends nor options begin, the columns do not end. -/
theorem readTail?_eq_none {s : List Char} (more : ∃ c ∈ s, Text.isBlank c = false)
    (turn : ∀ t, IsTurn (')' :: t) → ¬ t <+: s) : readTail? s = none := by
  have none : (do
      let s ← afterBlanks? s
      let s ← afterWord? "with".toList s
      let s ← afterChar? '(' (skipBlanks s)
      beforeClosing? s) = none := by
    by_contra some
    obtain ⟨options, found⟩ := Option.ne_none_iff_exists'.mp some
    simp only [Option.bind_eq_bind, Option.bind_eq_some_iff] at found
    obtain ⟨_, hblanks, _, hword, rest, hopen, -⟩ := found
    obtain ⟨blanks, areBlanks, parted, rfl⟩ := exists_afterBlanks? hblanks
    obtain ⟨word, isWord, rfl⟩ := afterWord?_eq_some_iff.mp hword
    obtain ⟨gap, isGap, hgap⟩ := exists_skipBlanks _
    rw [afterChar?_eq_some_iff.mp hopen] at hgap
    subst hgap
    exact turn _ (.intro areBlanks parted isWord isGap) ⟨rest, by simp⟩
  obtain ⟨c, hc, solid⟩ := more
  have unblank : ¬ s.all Text.isBlank = true := by
    intro all
    rw [List.all_eq_true.mp all c hc] at solid
    cases solid
  simp only [readTail?, none, if_neg unblank]

theorem readColumns?_append {columns seen tail : List Char} {options : Option (List Char)}
    (inner : ∀ before after, columns = before ++ ')' :: after →
      readTail? (after ++ ')' :: tail) = none)
    (htail : readTail? tail = some options) :
    readColumns? seen (columns ++ ')' :: tail) = some ⟨seen ++ columns, options⟩ := by
  induction columns generalizing seen with
  | nil => rw [List.nil_append, readColumns?, if_pos rfl, htail, List.append_nil]
  | cons c columns ih =>
    have none : (if c = ')' then readTail? (columns ++ ')' :: tail) else none) = none := by
      by_cases closing : c = ')'
      · rw [if_pos closing]
        exact inner [] columns (by rw [closing, List.nil_append])
      · rw [if_neg closing]
    rw [List.cons_append, readColumns?, none, List.append_cons seen c columns]
    exact ih fun before after split => inner (c :: before) after (by rw [split, List.cons_append])

theorem IsTurn.notMem {turn : List Char} (h : IsTurn (')' :: turn)) {mark : Char}
    (solid : Text.isBlank mark = false) (foreign : foldCase mark ∉ "with".toList)
    (other : mark ≠ '(') : mark ∉ turn := by
  have unblank {s : List Char} (hs : IsBlanks s) : mark ∉ s := by
    intro hm
    rw [hs mark hm] at solid
    cases solid
  cases h with
  | @intro blanks word gap areBlanks parted isWord isGap =>
    simp only [List.mem_append, List.mem_singleton, not_or]
    exact ⟨unblank areBlanks, fun h => foreign (isWord.mem h), unblank isGap, other⟩

/-- No turn stands in a text without blanks. -/
theorem IsTurn.not_infix {turn s : List Char} (h : IsTurn turn)
    (hs : s.any Text.isBlank = false) : ¬ turn <:+: s := by
  intro inside
  cases h with
  | @intro blanks word gap areBlanks parted isWord isGap =>
    obtain ⟨c, blanks, rfl⟩ := List.exists_cons_of_ne_nil parted
    exact List.any_eq_false.mp hs c (inside.subset (by simp)) (areBlanks c List.mem_cons_self)

/-- The columns of a definition that begin behind its first opening reach to the parenthesis behind
which the definition ends or its options begin. -/
theorem readParts?_definition {before opening columns tail : List Char}
    {options : Option (List Char)} (h : IsOpening opening)
    (first : ∀ other, IsOpening other → ¬ other <:+: before)
    (inner : ∀ turn, IsTurn turn → ¬ turn <:+: columns)
    (htail : readTail? tail = some options) :
    readParts? (before ++ (opening ++ (columns ++ ')' :: tail))) = some ⟨columns, options⟩ := by
  apply readParts?_append h first
  refine readColumns?_append ?_ htail
  rintro start after rfl
  refine readTail?_eq_none ⟨')', by simp, by decide⟩ ?_
  rintro turn hturn ⟨rest, split⟩
  -- The turn has no closing parenthesis but its first, so it ends before that of the columns.
  rcases List.append_eq_append_iff.mp split with ⟨more, rfl, -⟩ | ⟨more, rfl, later⟩
  · exact inner _ hturn ⟨start, more, by simp⟩
  · cases more with
    | nil => exact inner _ hturn ⟨start, [], by simp⟩
    | cons c more =>
      cases later
      exact hturn.notMem (by decide) (by decide) (by decide)
        (List.mem_append_right _ List.mem_cons_self)

/-- A turn in a joined list stands in one of its items. -/
theorem IsTurn.exists_item {turn : List Char} (h : IsTurn turn) {items : List (List Char)}
    (inside : turn <:+: comma.intercalate items) : ∃ item ∈ items, turn <:+: item := by
  obtain ⟨rest, rfl⟩ : ∃ rest, turn = ')' :: rest := by
    cases h
    exact ⟨_, rfl⟩
  have parted : ',' ∉ ')' :: rest := by
    have later : ',' ∉ rest := h.notMem (by decide) (by decide) (by decide)
    simp [later]
  induction items with
  | nil => cases List.infix_nil.mp inside
  | cons first items ih =>
    cases items with
    | nil =>
      rw [List.intercalate_singleton] at inside
      exact ⟨first, List.mem_cons_self, inside⟩
    | cons second items =>
      rw [List.intercalate_cons_cons, List.append_assoc, List.infix_append_iff] at inside
      rcases inside with inside | inside | ⟨before, after, split, hbefore, hafter⟩
      · exact ⟨first, List.mem_cons_self, inside⟩
      · have later : ')' :: rest <:+: comma.intercalate (second :: items) := by
          rcases List.infix_cons_iff.mp inside with start | inside
          · cases (List.cons_prefix_cons.mp start).1
          rcases List.infix_cons_iff.mp inside with start | inside
          · cases (List.cons_prefix_cons.mp start).1
          exact inside
        obtain ⟨item, hitem, found⟩ := ih later
        exact ⟨item, List.mem_cons_of_mem _ hitem, found⟩
      · cases after with
        | nil =>
          rw [List.append_nil] at split
          exact ⟨first, List.mem_cons_self, split ▸ hbefore.isInfix⟩
        | cons c after =>
          obtain ⟨rfl, -⟩ := List.cons_prefix_cons.mp hafter
          rw [split] at parted
          exact absurd (List.mem_append_right _ List.mem_cons_self) parted

end SearchSql.Catalog
