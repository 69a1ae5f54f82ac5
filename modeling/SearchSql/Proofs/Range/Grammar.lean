import Mathlib.Algebra.Ring.Parity
import Mathlib.Data.List.Induction
import Mathlib.Data.List.TakeWhile
import SearchSql.Literal.Decoding
import SearchSql.Proofs.Range.Reading

/-!
# The grammar of range literals

Which texts are range literals, and what they say (`IsLiteral`). A quoted bound ends at the first
quotation mark behind an even number of backslashes (`closeQuoted?_eq_some`). So each quotation mark
inside is preceded by an odd number, and the two replacements, one after the other, come to the same
as one that goes from left to right (`unescape_eq`). Just the texts of the grammar are read, and
those as what they say (`range_text_is_read_by_grammar`).
-/

namespace SearchSql

namespace RangeText

/-! ## The grammar -/

/-- The number of backslashes at the end of a text. -/
def backslashes (s : List Char) : Nat := (s.reverse.takeWhile (· = '\\')).length

/-- What may stand between quotation marks. -/
structure IsQuotedBody (body : List Char) : Prop where
  unfed : '\n' ∉ body
  inner : ∀ before after, body = before ++ Text.quotationMark :: after → Odd (backslashes before)
  closing : Even (backslashes body)

/-- The body with each backslash dropped that stands before a quotation mark or another backslash,
from left to right. -/
def dropEscapes : List Char → List Char
  | '\\' :: c :: rest =>
    if c = '\\' ∨ c = Text.quotationMark then c :: dropEscapes rest
    else '\\' :: c :: dropEscapes rest
  | c :: rest => c :: dropEscapes rest
  | [] => []

/-- The text of a bound and what it stands for. -/
inductive IsBound : List Char → Option String → Prop where
  | missing : IsBound [] none
  | bare {s : List Char} (nonempty : s ≠ [])
    (chars : ∀ c ∈ s, c ∉ [',', '[', ']', '(', ')', Text.quotationMark] ∧ Text.isBlank c = false) :
    IsBound s (some (String.ofList s))
  | quoted {body : List Char} (closed : IsQuotedBody body) :
    IsBound (Text.quotationMark :: body ++ [Text.quotationMark])
      (some (String.ofList (dropEscapes body)))

def IsGap (s : List Char) : Prop := ∀ c ∈ s, c ∈ [' ', '\t', '\x0c', '\r', '\n']

/-- The texts of the grammar, without blanks around them. -/
inductive IsLiteral : List Char → RangeText → Prop where
  | intro {r : RangeText} {gap₁ lower gap₂ gap₃ upper gap₄ : List Char} (before : IsGap gap₁)
    (isLower : IsBound lower r.lower) (behind : IsGap gap₂) (before' : IsGap gap₃)
    (isUpper : IsBound upper r.upper) (behind' : IsGap gap₄) :
    IsLiteral ((if r.lowerInclusive then '[' else '(') :: (gap₁ ++ (lower ++ (gap₂ ++
      ',' :: (gap₃ ++ (upper ++ (gap₄ ++ [if r.upperInclusive then ']' else ')']))))))) r

/-! ## Backslashes -/

@[simp] theorem backslashes_nil : backslashes [] = 0 := rfl

theorem backslashes_concat (s : List Char) (c : Char) :
    backslashes (s ++ [c]) = if c = '\\' then backslashes s + 1 else 0 := by
  rw [backslashes, List.reverse_append, List.reverse_singleton, List.singleton_append,
    List.takeWhile_cons]
  by_cases hc : c = '\\'
  · simp [hc, backslashes]
  · simp [hc]

/-- An even number of backslashes in front does not change whether there is an odd number at the
end. -/
theorem odd_backslashes_append {p : List Char} (even : Even (backslashes p)) (s : List Char) :
    Odd (backslashes (p ++ s)) ↔ Odd (backslashes s) := by
  induction s using List.reverseRecOn with
  | nil => simp [even]
  | append_singleton s c ih =>
    rw [← List.append_assoc, backslashes_concat, backslashes_concat]
    by_cases hc : c = '\\'
    · rw [if_pos hc, if_pos hc, Nat.odd_add_one, Nat.odd_add_one, ih]
    · rw [if_neg hc, if_neg hc]

/-! ## Quoted bounds -/

/-- What may stand behind a text before the next quotation mark that closes. -/
structure Continues (before body : List Char) : Prop where
  unfed : '\n' ∉ body
  inner : ∀ b a, body = b ++ Text.quotationMark :: a → Odd (backslashes (before ++ b))
  closing : Even (backslashes (before ++ body))

theorem continues_nil_left {body : List Char} : Continues [] body ↔ IsQuotedBody body :=
  ⟨fun h => ⟨h.unfed, h.inner, h.closing⟩, fun h => ⟨h.unfed, h.inner, h.closing⟩⟩

theorem continues_nil {before : List Char} : Continues before [] ↔ Even (backslashes before) := by
  constructor
  · intro h
    simpa using h.closing
  · intro even
    refine ⟨List.not_mem_nil, ?_, by simpa using even⟩
    intro b a split
    cases b <;> cases split

theorem continues_cons {before body : List Char} {c : Char} :
    Continues before (c :: body) ↔ c ≠ '\n' ∧ (c = Text.quotationMark → Odd (backslashes before)) ∧
      Continues (before ++ [c]) body := by
  constructor
  · intro h
    obtain ⟨first, others⟩ := not_or.mp (mt List.mem_cons.mpr h.unfed)
    refine ⟨Ne.symm first, ?_, others, ?_, ?_⟩
    · rintro rfl
      simpa using h.inner [] body rfl
    · rintro b a rfl
      simpa using h.inner (c :: b) a rfl
    · simpa using h.closing
  · rintro ⟨first, mark, h⟩
    refine ⟨?_, ?_, by simpa using h.closing⟩
    · exact mt List.mem_cons.mp (not_or.mpr ⟨Ne.symm first, h.unfed⟩)
    · intro b a split
      cases b with
      | nil =>
        cases split
        simpa using mark rfl
      | cons d b =>
        cases split
        simpa using h.inner b a rfl

/-- A quoted bound is read up to the mark that closes it, whatever stands behind. -/
theorem closeQuoted?_eq_some_iff_continues {odd : Bool} {before s body rest : List Char}
    (hodd : odd = true ↔ Odd (backslashes before)) :
    closeQuoted? odd s = some (body, rest) ↔
      s = body ++ Text.quotationMark :: rest ∧ Continues before body := by
  induction s generalizing odd before body with
  | nil => simp [closeQuoted?]
  | cons c s ih =>
    have next : (decide (c = '\\') && ! odd) = true ↔ Odd (backslashes (before ++ [c])) := by
      rw [backslashes_concat]
      by_cases hc : c = '\\'
      · simp [hc, Nat.odd_add_one, ← hodd]
      · simp [hc]
    have tail (body' : List Char) := @ih _ _ body' next
    have mark : (decide (c = Text.quotationMark) && ! odd) = true ↔
        c = Text.quotationMark ∧ ¬ Odd (backslashes before) := by
      rw [← hodd, Bool.and_eq_true, decide_eq_true_iff, Bool.not_eq_true', Bool.not_eq_true]
    rw [closeQuoted?]
    by_cases feed : c = '\n'
    · rw [if_pos feed]
      refine iff_of_false nofun ?_
      rintro ⟨split, h⟩
      cases body with
      | nil => exact absurd (feed.symm.trans (List.cons.inj split).1) (by decide)
      | cons d body => exact (continues_cons.mp h).1 ((List.cons.inj split).1.symm.trans feed)
    rw [if_neg feed]
    by_cases closes : c = Text.quotationMark ∧ ¬ Odd (backslashes before)
    · rw [if_pos (mark.mpr closes)]
      cases body with
      | nil =>
        have even := Nat.not_odd_iff_even.mp closes.2
        simp [closes.1, continues_nil, even]
      | cons d body =>
        refine iff_of_false nofun ?_
        rintro ⟨split, h⟩
        exact closes.2 ((continues_cons.mp h).2.1 ((List.cons.inj split).1.symm.trans closes.1))
    · rw [if_neg (mt mark.mp closes), Option.map_eq_some_iff]
      constructor
      · rintro ⟨⟨body', rest'⟩, found, ⟨⟩⟩
        obtain ⟨rfl, h⟩ := (tail body').mp found
        exact ⟨rfl, continues_cons.mpr ⟨feed, fun hc => by_contra fun even => closes ⟨hc, even⟩, h⟩⟩
      · rintro ⟨split, h⟩
        cases body with
        | nil =>
          obtain ⟨hc, -⟩ := List.cons.inj split
          exact absurd ⟨hc, Nat.not_odd_iff_even.mpr (continues_nil.mp h)⟩ closes
        | cons d body =>
          cases split
          exact ⟨(body, rest), (tail body).mpr ⟨rfl, (continues_cons.mp h).2.2⟩, rfl⟩

theorem closeQuoted?_eq_some {s body rest : List Char} :
    closeQuoted? false s = some (body, rest) ↔
      s = body ++ Text.quotationMark :: rest ∧ IsQuotedBody body := by
  have start : false = true ↔ Odd (backslashes []) := by decide
  rw [closeQuoted?_eq_some_iff_continues start, continues_nil_left]

/-! ## Escapes -/

theorem Continues.of_append {p before body : List Char} (even : Even (backslashes p))
    (h : Continues (p ++ before) body) : Continues before body := by
  refine ⟨h.unfed, ?_, ?_⟩
  · intro b a split
    have inside := h.inner b a split
    rwa [List.append_assoc, odd_backslashes_append even] at inside
  · have closing := h.closing
    rwa [List.append_assoc, ← Nat.not_odd_iff_even, odd_backslashes_append even,
      Nat.not_odd_iff_even] at closing

theorem replacePair_pair (a b replacement : Char) (rest : List Char) :
    replacePair a b replacement (a :: b :: rest) =
      replacement :: replacePair a b replacement rest := by
  rw [replacePair, if_pos ⟨rfl, rfl⟩]

theorem replacePair_cons {a b replacement c : Char} {rest : List Char}
    (unpaired : c = a → b ∉ rest.head?) :
    replacePair a b replacement (c :: rest) = c :: replacePair a b replacement rest := by
  cases rest with
  | nil => rfl
  | cons d rest =>
    rw [replacePair, if_neg]
    rintro ⟨hc, rfl⟩
    exact unpaired hc rfl

/-- Between the marks of a quoted bound, two replacements on the whole are one from left to right:
an odd number of backslashes stands before a quotation mark, so the last of them is none that the
other replacement would have taken. -/
theorem unescape_eq {body : List Char} (h : Continues [] body) :
    unescape body = dropEscapes body := by
  have apart : Text.quotationMark ≠ '\\' := by decide
  unfold unescape
  fun_induction dropEscapes body with
  | case1 c rest special ih =>
    have later := (continues_cons.mp (continues_cons.mp h).2.2).2.2
    rcases special with rfl | rfl
    · have two : Even (backslashes ['\\', '\\']) := by decide
      have unmarked : Text.quotationMark ∉ rest.head? := by
        intro marked
        obtain ⟨more, rfl⟩ := List.head?_eq_some_iff.mp marked
        exact absurd ((continues_cons.mp later).2.1 rfl) (Nat.not_odd_iff_even.mpr two)
      rw [replacePair_cons fun _ marked => apart.symm (Option.some.inj marked),
        replacePair_cons fun _ => unmarked, replacePair_pair, ih (.of_append two later)]
    · have none : Even (backslashes ['\\', Text.quotationMark]) := by decide
      rw [replacePair_pair, replacePair_cons fun same => absurd same apart,
        ih (.of_append none later)]
  | case2 c rest other ih =>
    obtain ⟨single, unmarked⟩ := not_or.mp other
    have later := (continues_cons.mp (continues_cons.mp h).2.2).2.2
    have none : Even (backslashes ['\\', c]) := by
      rw [show ['\\', c] = ['\\'] ++ [c] from rfl, backslashes_concat, if_neg single]
      exact Even.zero
    rw [replacePair_cons fun _ marked => unmarked (Option.some.inj marked),
      replacePair_cons fun same => absurd same single,
      replacePair_cons fun _ again => single (Option.some.inj again),
      replacePair_cons fun same => absurd same single, ih (.of_append none later)]
  | case3 c rest other ih =>
    have later := (continues_cons.mp h).2.2
    -- A backslash at the very end would stand before the closing mark.
    have plain : c ≠ '\\' := by
      rintro rfl
      cases rest with
      | nil => exact absurd (continues_nil.mp later) (by decide)
      | cons d rest => exact other d rest rfl rfl
    have none : Even (backslashes [c]) := by
      rw [← List.nil_append [c], backslashes_concat, if_neg plain]
      exact Even.zero
    rw [replacePair_cons fun same => absurd same plain,
      replacePair_cons fun same => absurd same plain, ih (.of_append none later)]
  | case4 => rfl

/-! ## Texts in quotation marks -/

/-- A text with a backslash before every quotation mark and backslash. -/
def escape (s : List Char) : List Char :=
  s.flatMap fun c => if c = '\\' ∨ c = Text.quotationMark then ['\\', c] else [c]

def quoteBound (s : List Char) : List Char :=
  Text.quotationMark :: escape s ++ [Text.quotationMark]

theorem escape_cons (c : Char) (s : List Char) :
    escape (c :: s) =
      (if c = '\\' ∨ c = Text.quotationMark then ['\\', c] else [c]) ++ escape s :=
  List.flatMap_cons

theorem dropEscapes_escape (s : List Char) : dropEscapes (escape s) = s := by
  induction s with
  | nil => rfl
  | cons c s ih =>
    rw [escape_cons]
    by_cases special : c = '\\' ∨ c = Text.quotationMark
    · rw [if_pos special, List.cons_append, List.singleton_append, dropEscapes, if_pos special, ih]
    · rw [if_neg special, List.singleton_append, dropEscapes, ih]
      rintro d rest rfl
      exact absurd (Or.inl rfl) special

theorem continues_escape {s before : List Char} (unfed : '\n' ∉ s)
    (even : Even (backslashes before)) : Continues before (escape s) := by
  induction s generalizing before with
  | nil => exact continues_nil.mpr even
  | cons c s ih =>
    obtain ⟨first, others⟩ := not_or.mp (mt List.mem_cons.mpr unfed)
    rw [escape_cons]
    by_cases special : c = '\\' ∨ c = Text.quotationMark
    · have odd : Odd (backslashes (before ++ ['\\'])) := by
        rw [backslashes_concat, if_pos rfl]
        exact even.add_one
      rw [if_pos special, List.cons_append, List.singleton_append]
      refine continues_cons.mpr ⟨by decide, nofun, ?_⟩
      refine continues_cons.mpr ⟨Ne.symm first, fun _ => odd, ih others ?_⟩
      rw [backslashes_concat]
      by_cases hc : c = '\\'
      · rw [if_pos hc]
        exact odd.add_one
      · rw [if_neg hc]
        exact Even.zero
    · obtain ⟨single, unmarked⟩ := not_or.mp special
      rw [if_neg special, List.singleton_append]
      refine continues_cons.mpr ⟨Ne.symm first, fun hc => absurd hc unmarked, ih others ?_⟩
      rw [backslashes_concat, if_neg single]
      exact Even.zero

theorem isBound_quoteBound {s : List Char} (unfed : '\n' ∉ s) :
    IsBound (quoteBound s) (some (String.ofList s)) := by
  have closed := continues_nil_left.mp (continues_escape unfed Even.zero)
  have bound := IsBound.quoted closed
  rwa [dropEscapes_escape] at bound

/-! ## Parts of a literal -/

theorem isBare_iff {c : Char} : isBare c = true ↔
    c ∉ [',', '[', ']', '(', ')', Text.quotationMark] ∧ Text.isBlank c = false := by
  simp only [isBare, Bool.not_eq_true', Bool.or_eq_false_iff, decide_eq_false_iff_not,
    List.mem_cons, List.not_mem_nil, or_false, not_or, and_assoc]

theorem isGap_iff {c : Char} : isGap c = true ↔ c ∈ [' ', '\t', '\x0c', '\r', '\n'] := by
  simp only [isGap, Bool.or_eq_true, decide_eq_true_eq, List.mem_cons, List.not_mem_nil, or_false,
    or_assoc]

/-- Blanks end a bound without quotes. -/
theorem not_isBare_of_isGap {c : Char} (h : isGap c = true) : isBare c = false := by
  have blank := isGap_iff.mp h
  simp only [List.mem_cons, List.not_mem_nil, or_false] at blank
  rcases blank with rfl | rfl | rfl | rfl | rfl <;> decide

theorem isGap_takeWhile (s : List Char) : IsGap (s.takeWhile isGap) :=
  fun _ hc => isGap_iff.mp (List.mem_takeWhile_imp hc)

theorem skipGap_append {gap rest : List Char} (h : IsGap gap) (stop : StopsAt isGap rest) :
    skipGap (gap ++ rest) = rest :=
  dropWhile_part (fun c hc => isGap_iff.mpr (h c hc)) stop

theorem IsGap.append {gap gap' : List Char} (h : IsGap gap) (h' : IsGap gap') :
    IsGap (gap ++ gap') :=
  List.forall_mem_append.mpr ⟨h, h'⟩

/-- A character that ends a part: a comma or a bracket. -/
structure EndsPart (c : Char) : Prop where
  solid : isGap c = false
  foreign : isBare c = false
  unmarked : c ≠ Text.quotationMark

theorem readBound?_quoted (s : List Char) :
    readBound? (Text.quotationMark :: s) =
      (closeQuoted? false s).map fun (body, rest) =>
        (some (String.ofList (unescape body)), rest) := rfl

theorem readBound?_unquoted {s : List Char} (unmarked : Text.quotationMark ∉ s.head?) :
    readBound? s = some (if (s.takeWhile isBare).isEmpty then none
      else some (String.ofList (s.takeWhile isBare)), s.dropWhile isBare) := by
  unfold readBound?
  split
  · exact absurd rfl unmarked
  · rfl

/-- A bound is read up to what no bound without quotes goes on with. -/
theorem readBound?_append {bound rest : List Char} {v : Option String} (h : IsBound bound v)
    (stop : StopsAt isBare rest) (unmarked : Text.quotationMark ∉ rest.head?) :
    readBound? (bound ++ rest) = some (v, rest) := by
  cases h with
  | missing =>
    have none := takeWhile_part (List.forall_mem_nil _) stop
    have all := dropWhile_part (List.forall_mem_nil _) stop
    rw [List.nil_append] at none all ⊢
    rw [readBound?_unquoted unmarked, none, all]
    rfl
  | bare nonempty chars =>
    have bare : ∀ c ∈ bound, isBare c = true := fun c hc => isBare_iff.mpr (chars c hc)
    have unmarked' : Text.quotationMark ∉ (bound ++ rest).head? := by
      obtain ⟨c, more, rfl⟩ := List.exists_cons_of_ne_nil nonempty
      rintro ⟨⟩
      exact (chars _ List.mem_cons_self).1 (by decide)
    rw [readBound?_unquoted unmarked', takeWhile_part bare stop, dropWhile_part bare stop]
    simp [nonempty]
  | @quoted body closed =>
    have opened : Text.quotationMark :: body ++ [Text.quotationMark] ++ rest =
        Text.quotationMark :: (body ++ Text.quotationMark :: rest) := by
      simp
    rw [opened, readBound?_quoted, closeQuoted?_eq_some.mpr ⟨rfl, closed⟩,
      ← unescape_eq (continues_nil_left.mpr closed)]
    rfl

theorem exists_isBound_of_readBound? {s rest : List Char} {v : Option String}
    (h : readBound? s = some (v, rest)) : ∃ bound, s = bound ++ rest ∧ IsBound bound v := by
  by_cases marked : Text.quotationMark ∈ s.head?
  · obtain ⟨more, rfl⟩ := List.head?_eq_some_iff.mp marked
    rw [readBound?_quoted] at h
    obtain ⟨⟨body, rest'⟩, found, ⟨⟩⟩ := Option.map_eq_some_iff.mp h
    obtain ⟨rfl, closed⟩ := closeQuoted?_eq_some.mp found
    refine ⟨Text.quotationMark :: body ++ [Text.quotationMark], by simp, ?_⟩
    rw [unescape_eq (continues_nil_left.mpr closed)]
    exact .quoted closed
  · rw [readBound?_unquoted marked] at h
    cases h
    refine ⟨s.takeWhile isBare, List.takeWhile_append_dropWhile.symm, ?_⟩
    cases bare : s.takeWhile isBare with
    | nil => exact .missing
    | cons c more =>
      have chars : ∀ d ∈ c :: more, isBare d = true := by
        rw [← bare]
        exact fun d hd => List.mem_takeWhile_imp hd
      exact .bare (List.cons_ne_nil c more) fun d hd => isBare_iff.mp (chars d hd)

/-- A bound that is there begins with a character that is no blank. -/
theorem IsBound.solid {bound : List Char} {v : Option String} (h : IsBound bound v)
    (given : bound ≠ []) (rest : List Char) : StopsAt isGap (bound ++ rest) := by
  obtain ⟨c, more, rfl⟩ := List.exists_cons_of_ne_nil given
  refine stopsAt_cons ?_
  cases h with
  | bare nonempty chars =>
    by_contra blank
    have foreign := not_isBare_of_isGap (Bool.not_eq_false _ ▸ blank)
    rw [isBare_iff.mpr (chars c List.mem_cons_self)] at foreign
    cases foreign
  | quoted closed => decide

/-- A part is a bound with blanks around it, up to the character that ends it. -/
theorem readPart_iff {s rest : List Char} {v : Option String} {c : Char} (ends : EndsPart c) :
    (∃ s', readBound? (skipGap s) = some (v, s') ∧ skipGap s' = c :: rest) ↔
      ∃ gap bound gap', s = gap ++ (bound ++ (gap' ++ c :: rest)) ∧
        IsGap gap ∧ IsBound bound v ∧ IsGap gap' := by
  constructor
  · rintro ⟨s', found, skipped⟩
    obtain ⟨bound, split, isBound⟩ := exists_isBound_of_readBound? found
    refine ⟨s.takeWhile isGap, bound, s'.takeWhile isGap, ?_, isGap_takeWhile s, isBound,
      isGap_takeWhile s'⟩
    rw [← skipped, skipGap, List.takeWhile_append_dropWhile, ← split, skipGap,
      List.takeWhile_append_dropWhile]
  · rintro ⟨gap, bound, gap', rfl, hgap, isBound, hgap'⟩
    have solid : StopsAt isGap (c :: rest) := stopsAt_cons ends.solid
    have foreign : StopsAt isBare (c :: rest) := stopsAt_cons ends.foreign
    have unmarked : Text.quotationMark ∉ (c :: rest).head? :=
      fun marked => ends.unmarked (Option.some.inj marked)
    by_cases missing : bound = []
    · subst missing
      have skipped : skipGap (gap ++ ([] ++ (gap' ++ c :: rest))) = c :: rest := by
        rw [List.nil_append, ← List.append_assoc]
        exact skipGap_append (hgap.append hgap') solid
      have found := readBound?_append isBound foreign unmarked
      rw [skipped]
      exact ⟨c :: rest, found, skipGap_append (List.forall_mem_nil _) solid⟩
    · have stop : StopsAt isBare (gap' ++ c :: rest) ∧
          Text.quotationMark ∉ (gap' ++ c :: rest).head? := by
        cases gap' with
        | nil => exact ⟨foreign, unmarked⟩
        | cons d gap' =>
          have blank := hgap' d List.mem_cons_self
          refine ⟨stopsAt_cons (not_isBare_of_isGap (isGap_iff.mpr blank)), ?_⟩
          rintro ⟨⟩
          exact absurd blank (by decide)
      rw [skipGap_append hgap (isBound.solid missing _)]
      exact ⟨_, readBound?_append isBound stop.1 stop.2, skipGap_append hgap' solid⟩

theorem readBracket?_eq_some {inclusive exclusive : Char} (apart : inclusive ≠ exclusive)
    {s rest : List Char} {b : Bool} :
    readBracket? inclusive exclusive s = some (b, rest) ↔
      s = (if b then inclusive else exclusive) :: rest := by
  cases s with
  | nil => exact iff_of_false nofun nofun
  | cons c s =>
    rw [readBracket?]
    by_cases first : c = inclusive
    · subst first
      cases b <;> simp [apart]
    · cases b <;> simp [first]

theorem readComma?_eq_some {s rest : List Char} : readComma? s = some rest ↔ s = ',' :: rest := by
  unfold readComma?
  split
  · simp
  · next other => exact iff_of_false nofun fun h => other rest h

theorem endsPart_comma : EndsPart ',' := ⟨by decide, by decide, by decide⟩

theorem endsPart_bracket (b : Bool) : EndsPart (if b then ']' else ')') := by
  cases b <;> exact ⟨by decide, by decide, by decide⟩

theorem read?_eq_some_iff {text : String} {r : RangeText} :
    read? text = some r ↔ IsLiteral (Text.trim text.toList) r := by
  have steps : read? text = some r ↔ ∃ s₁ s₂ s₃ s₄,
      readBracket? '[' '(' (Text.trim text.toList) = some (r.lowerInclusive, s₁) ∧
      readBound? (skipGap s₁) = some (r.lower, s₂) ∧ readComma? (skipGap s₂) = some s₃ ∧
      readBound? (skipGap s₃) = some (r.upper, s₄) ∧
      readBracket? ']' ')' (skipGap s₄) = some (r.upperInclusive, []) := by
    rw [read?]
    simp only [Option.bind_eq_bind, Option.bind_eq_some_iff, Prod.exists]
    constructor
    · rintro ⟨b, s₁, h₁, lower, s₂, h₂, s₃, h₃, upper, s₄, h₄, b', s₅, h₅, last⟩
      cases s₅ with
      | nil =>
        cases last
        exact ⟨s₁, s₂, s₃, s₄, h₁, h₂, h₃, h₄, h₅⟩
      | cons c s₅ => cases last
    · rintro ⟨s₁, s₂, s₃, s₄, h₁, h₂, h₃, h₄, h₅⟩
      exact ⟨_, s₁, h₁, _, s₂, h₂, s₃, h₃, _, s₄, h₄, _, [], h₅, rfl⟩
  rw [steps]
  generalize Text.trim text.toList = t
  constructor
  · rintro ⟨s₁, s₂, s₃, s₄, h₁, h₂, h₃, h₄, h₅⟩
    rw [readBracket?_eq_some (by decide)] at h₁ h₅
    rw [readComma?_eq_some] at h₃
    obtain ⟨gap₁, lower, gap₂, rfl, before, isLower, behind⟩ :=
      (readPart_iff endsPart_comma).mp ⟨s₂, h₂, h₃⟩
    obtain ⟨gap₃, upper, gap₄, rfl, before', isUpper, behind'⟩ :=
      (readPart_iff (endsPart_bracket _)).mp ⟨s₄, h₄, h₅⟩
    rw [h₁]
    exact .intro before isLower behind before' isUpper behind'
  · rintro ⟨before, isLower, behind, before', isUpper, behind'⟩
    obtain ⟨s₂, h₂, h₃⟩ :=
      (readPart_iff endsPart_comma).mpr ⟨_, _, _, rfl, before, isLower, behind⟩
    obtain ⟨s₄, h₄, h₅⟩ :=
      (readPart_iff (endsPart_bracket _)).mpr ⟨_, _, _, rfl, before', isUpper, behind'⟩
    exact ⟨_, s₂, _, s₄, (readBracket?_eq_some (by decide)).mpr rfl, h₂,
      readComma?_eq_some.mpr h₃, h₄, (readBracket?_eq_some (by decide)).mpr h₅⟩

/-! ## Reading -/

/-- A literal with its bounds in quotation marks. -/
def quotedText (r : RangeText) : String :=
  String.ofList ((if r.lowerInclusive then '[' else '(') ::
    (bound r.lower ++ ',' :: bound r.upper ++ [if r.upperInclusive then ']' else ')']))
where
  bound : Option String → List Char
    | none => []
    | some s => quoteBound s.toList

theorem isBound_bound {v : Option String} (unfed : ∀ s ∈ v, '\n' ∉ s.toList) :
    IsBound (quotedText.bound v) v := by
  cases v with
  | none => exact .missing
  | some s =>
    have quoted := isBound_quoteBound (unfed s rfl)
    rwa [String.ofList_toList] at quoted

theorem isLiteral_quotedText {r : RangeText} (lower : ∀ s ∈ r.lower, '\n' ∉ s.toList)
    (upper : ∀ s ∈ r.upper, '\n' ∉ s.toList) :
    IsLiteral (Text.trim r.quotedText.toList) r := by
  have left : Text.isBlank (if r.lowerInclusive then '[' else '(') = false := by
    cases r.lowerInclusive <;> rfl
  have right : Text.isBlank (if r.upperInclusive then ']' else ')') = false := by
    cases r.upperInclusive <;> rfl
  have none : IsGap [] := List.forall_mem_nil _
  have literal := IsLiteral.intro none (isBound_bound lower) none none (isBound_bound upper) none
  rw [quotedText, String.toList_ofList, trim_eq_self _ left right]
  simpa using literal

theorem report_unreadable (shown : String) :
    (DecodingError.range (.unreadable shown)).report = ⟨.invalidRange, "invalid range literal",
      "cannot parse range literal " ++ shown ++ ": ", some .grammar⟩ := by
  have worded : ("cannot parse range literal " ++ shown ++ ": ").isEmpty ≠ true := by
    simp [String.isEmpty_iff]
  have made : (Report.make .invalidRange "invalid range literal"
      ("cannot parse range literal " ++ shown ++ ": ")).withCause .grammar =
      ⟨.invalidRange, "invalid range literal", "cannot parse range literal " ++ shown ++ ": ",
        some .grammar⟩ := by
    rw [Report.make, if_neg worded, Report.withCause]
  exact made

/-- Just the texts of the grammar are read, once they are trimmed, and each as what it says. Any
other text is reported as no range literal, whatever type of range it was to be read as. A bound in
quotation marks stands for the text that was put there, be there marks and backslashes in it or not,
if it has no line feed. -/
theorem range_text_is_read_by_grammar :
    (∀ (text : String) (r : RangeText),
      ofValue (.text text) = .ok r ↔ IsLiteral (Text.trim text.toList) r) ∧
    (∀ text : String, (∀ r, ¬ IsLiteral (Text.trim text.toList) r) →
      (∃ e, ofValue (.text text) = .error e ∧
        e.report = ⟨.invalidRange, "invalid range literal",
          "cannot parse range literal " ++ Text.quoted text ++ ": ", some .grammar⟩) ∧
      ∀ request, SearchRange.read text request = .error (.unreadable (Text.quoted text))) ∧
    (∀ s : String, '\n' ∉ s.toList → IsBound (quoteBound s.toList) (some s)) ∧
    ∀ r : RangeText, (∀ s ∈ r.lower, '\n' ∉ s.toList) → (∀ s ∈ r.upper, '\n' ∉ s.toList) →
      ofValue (.text r.quotedText) = .ok r := by
  have read (text : String) (r : RangeText) :
      ofValue (.text text) = .ok r ↔ IsLiteral (Text.trim text.toList) r := by
    rw [← read?_eq_some_iff, ofValue]
    cases read? text <;> simp
  refine ⟨read, ?_, ?_, ?_⟩
  · intro text none
    have unread : read? text = .none :=
      Option.eq_none_iff_forall_ne_some.mpr fun r h => none r (read?_eq_some_iff.mp h)
    refine ⟨⟨.range (.unreadable (Text.quoted text)), ?_, ?_⟩, ?_⟩
    · simp only [ofValue, unread, Value.shown_text]
    · exact report_unreadable (Text.quoted text)
    · intro request
      rw [SearchRange.read, unread]
  · intro s unfed
    have quoted := isBound_quoteBound unfed
    rwa [String.ofList_toList] at quoted
  · intro r lower upper
    exact (read _ r).mpr (isLiteral_quotedText lower upper)

/-- A bound with an escaped mark and backslash, a text without its closing bracket, and a literal
whose bound holds a backslash and a mark. -/
theorem marked_text_is_read :
    IsLiteral (Text.trim " [ \"a\\\\\\\"b\" ,2)\n".toList) ⟨true, some "a\\\"b", some "2", false⟩ ∧
    SearchRange.read "[1,\"2\\\"]" (.named .int8) = .error (.unreadable "'[1,\"2\\\\\"]'") ∧
    IsBound (quoteBound ['\\', '\x22']) (some "\\\"") ∧
    ofValue (.text (quotedText ⟨false, some "\\\"", none, true⟩)) =
      .ok ⟨false, some "\\\"", none, true⟩ := by
  obtain ⟨read, refused, quoted, restored⟩ := range_text_is_read_by_grammar
  refine ⟨(read _ _).mp ?_, ?_, quoted "\\\"" (by decide), restored _ (by decide) (by decide)⟩
  · decide +kernel
  · have unread : ∀ r, ¬ IsLiteral (Text.trim "[1,\"2\\\"]".toList) r := by
      intro r literal
      have ok := (read _ _).mpr literal
      have failed : (ofValue (.text "[1,\"2\\\"]")).isOk = false := by decide +kernel
      rw [ok] at failed
      cases failed
    rw [(refused _ unread).2]
    decide +kernel

end RangeText

end SearchSql
