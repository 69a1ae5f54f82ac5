import Mathlib.Data.List.Chain
import SearchSql.Proofs.Call.Script

/-!
# The numbering of placeholders

The bound text of a template is read back as the tokens it was made from (`scan_bound`), so its
placeholders are numbered without a gap. It holds because a slot is only ever followed by text
that does not continue a number (`isChain_searchCall`).
-/

namespace SearchSql

/-! ## What follows a slot -/

/-- A text that begins with something other than a digit. -/
def ClosesNumber (s : String) : Prop := ∃ c ∈ s.toList.head?, c.isDigit = false

theorem ClosesNumber.endsNumber_append {s : String} (h : ClosesNumber s) (rest : List Char) :
    Token.EndsNumber (s.toList ++ rest) := by
  obtain ⟨c, hc, nodigit⟩ := h
  rw [Option.mem_def, List.head?_eq_some_iff] at hc
  obtain ⟨tail, htail⟩ := hc
  intro d hd
  rw [htail, List.cons_append, List.head?_cons, Option.mem_some_iff] at hd
  exact hd ▸ nodigit

/-- After a slot there is text that closes the number of a placeholder, and nothing else. -/
def Step.AllowsNext : Step → Step → Prop
  | .slot _ _, .text s => ClosesNumber s
  | .slot _ _, _ => False
  | _, _ => True

theorem Step.allowsNext_text (step : Step) {s : String} (h : ClosesNumber s) :
    step.AllowsNext (.text s) := by
  cases step with
  | slot v argument => exact h
  | text t => trivial
  | enter d => trivial
  | unsupported n => trivial

namespace Script

theorem isChain_text {s : String} {rest : Script} (h : rest.IsChain Step.AllowsNext) :
    List.IsChain Step.AllowsNext (.text s :: rest) :=
  h.cons fun _ _ => trivial

theorem isChain_enter {d : ℕ} {rest : Script} (h : rest.IsChain Step.AllowsNext) :
    List.IsChain Step.AllowsNext (.enter d :: rest) :=
  h.cons fun _ _ => trivial

/-- Any script may be closed by such a text. -/
theorem isChain_append_text {script rest : Script} {s : String} (hs : ClosesNumber s)
    (h : script.IsChain Step.AllowsNext) (hr : rest.IsChain Step.AllowsNext) :
    List.IsChain Step.AllowsNext (script ++ .text s :: rest) := by
  refine h.append (isChain_text hr) ?_
  rintro step - _ ⟨⟩
  exact step.allowsNext_text hs

theorem closesNumber_comma : ClosesNumber ", " := ⟨',', rfl, by decide⟩

theorem closesNumber_parenthesis : ClosesNumber ")" := ⟨')', rfl, by decide⟩

theorem isChain_commaSeparated {args : List Script}
    (h : ∀ s ∈ args, List.IsChain Step.AllowsNext s) :
    (commaSeparated args).IsChain Step.AllowsNext := by
  fun_induction commaSeparated args with
  | case1 => exact List.IsChain.nil
  | case2 s => exact h s List.mem_cons_self
  | case3 s rest _ ih =>
    have behind : (commaSeparated rest).IsChain Step.AllowsNext := by
      apply ih
      intro t ht
      exact h t (List.mem_cons_of_mem _ ht)
    exact isChain_append_text closesNumber_comma (h s List.mem_cons_self) behind

theorem isChain_call {function : String} {args : List Script}
    (h : ∀ s ∈ args, List.IsChain Step.AllowsNext s) :
    (call function args).IsChain Step.AllowsNext := by
  apply isChain_text
  exact isChain_append_text closesNumber_parenthesis (isChain_commaSeparated h) List.IsChain.nil

theorem isChain_named {name arrow : String} {value : Script}
    (h : value.IsChain Step.AllowsNext) : (named name arrow value).IsChain Step.AllowsNext :=
  isChain_text h

theorem isChain_leaf {style : Style} {function field : String} {args : List (String × Script)}
    (h : ∀ arg ∈ args, List.IsChain Step.AllowsNext arg.2) :
    (style.leaf function field args).IsChain Step.AllowsNext := by
  apply isChain_call
  refine List.forall_mem_cons.mpr ⟨isChain_named (List.IsChain.singleton _), ?_⟩
  refine List.forall_mem_map.mpr ?_
  intro arg harg
  exact isChain_named (h arg harg)

theorem isChain_optional {style : Style} {argument : Argument} {v : Option Value} :
    ∀ arg ∈ style.optional argument v, List.IsChain Step.AllowsNext arg.2 := by
  cases v with
  | none => exact List.forall_mem_nil _
  | some w => exact List.forall_mem_singleton.mpr (List.IsChain.singleton _)

theorem isChain_fuzzyArguments {style : Style} {options : FuzzyOptions} :
    ∀ arg ∈ style.fuzzyArguments options, List.IsChain Step.AllowsNext arg.2 := by
  refine List.forall_mem_append.mpr ⟨List.forall_mem_append.mpr ⟨?_, ?_⟩, ?_⟩
  · exact isChain_optional
  · exact isChain_optional
  · exact isChain_optional

end Script

namespace Style

variable {style : Style}

theorem isChain_script (hs : ClosesNumber style.arrayClose) (p : Predicate Value) (depth : ℕ) :
    (style.script depth p).IsChain Step.AllowsNext := by
  have slot (v : Value) : List.IsChain Step.AllowsNext [.slot v none] := List.IsChain.singleton _
  induction p using Predicate.tree_induction generalizing depth with
  | leaf p leaf =>
    cases p with
    | parse query => exact Script.isChain_enter (Script.isChain_call (by simp))
    | term f v => exact Script.isChain_enter (Script.isChain_leaf (by simp))
    | fuzzy f v options =>
      apply Script.isChain_enter
      apply Script.isChain_leaf
      exact List.forall_mem_cons.mpr ⟨slot _, Script.isChain_fuzzyArguments⟩
    | phrase f phrases slop =>
      apply Script.isChain_enter
      apply Script.isChain_leaf
      exact List.forall_mem_cons.mpr ⟨slot _, Script.isChain_optional⟩
    | range f r => exact Script.isChain_enter (Script.isChain_leaf (by simp))
    | present f => exact Script.isChain_enter (Script.isChain_leaf (List.forall_mem_nil _))
    | boolean kind first rest => cases leaf
    | boost query factor => cases leaf
    | foreign n => exact Script.isChain_enter (List.IsChain.singleton _)
  | boolean kind first rest ih =>
    have inner : ∀ s ∈ style.scripts (depth + 1) (first :: rest),
        List.IsChain Step.AllowsNext s := by
      rw [scripts_eq_map]
      refine List.forall_mem_map.mpr ?_
      intro q hq
      exact ih q hq (depth + 1)
    apply Script.isChain_enter
    apply Script.isChain_call
    refine List.forall_mem_singleton.mpr (Script.isChain_named (Script.isChain_text ?_))
    exact Script.isChain_append_text hs (Script.isChain_commaSeparated inner) List.IsChain.nil
  | boost query factor ih =>
    apply Script.isChain_enter
    apply Script.isChain_call
    refine List.forall_mem_cons.mpr ⟨Script.isChain_named (List.IsChain.singleton _), ?_⟩
    exact List.forall_mem_singleton.mpr (Script.isChain_named (ih (depth + 1)))

theorem isChain_searchCall (hs : ClosesNumber style.arrayClose) (tree : SearchTree) :
    (style.searchCall tree).IsChain Step.AllowsNext := by
  apply Script.isChain_call
  refine List.forall_mem_cons.mpr ⟨Script.isChain_named (isChain_script hs tree.root 1), ?_⟩
  intro s hs
  obtain ⟨o, -, ho⟩ := List.mem_filterMap.mp hs
  obtain ⟨v, -, rfl⟩ := Option.map_eq_some_iff.mp ho
  exact Script.isChain_named (List.IsChain.singleton _)

end Style

theorem Dialect.closesNumber_arrayClose (dialect : Dialect) :
    ClosesNumber dialect.style.arrayClose := by
  cases dialect with
  | paradedb => exact ⟨']', rfl, by decide⟩
  | shorthand => exact ⟨']', rfl, by decide⟩

/-! ## Reading a bound text -/

/-- As many consecutive numbers. -/
def block (first : Int) (n : ℕ) : List Int := (List.range n).map fun (i : ℕ) => first + i

theorem block_succ (first : Int) (n : ℕ) : block first (n + 1) = first :: block (first + 1) n := by
  rw [block, List.range_succ_eq_map, List.map_cons, List.map_map]
  simp [block, Function.comp_def, Int.add_assoc, Int.add_comm 1]

theorem block_add (first : Int) (m n : ℕ) :
    block first (m + n) = block first m ++ block (first + m) n := by
  simp [block, List.range_add, Function.comp_def, Int.add_assoc]

/-- What stands behind the number in a placeholder. -/
def Style.castText (style : Style) (argument : Option Argument) (literal : Literal) : String :=
  if style.showsTypes then
    "::" ++ (argument.bind Argument.declaredType?).getD literal.sqlType
  else ""

theorem Style.toList_placeholder (style : Style) (n : Int) (argument : Option Argument)
    (literal : Literal) :
    (style.placeholder n argument literal).toList =
      Token.mark :: (Number.intText n ++ (style.castText argument literal).toList) := by
  simp [placeholder, castText, Token.mark]

namespace Template

/-- The tokens of the bound text. -/
def tokens (style : Style) (k : Int) : Template → List Token
  | [] => []
  | .text s :: rest => s.toList.map .char ++ tokens style k rest
  | .slot literal argument :: rest =>
    if literal.kind = .boolean then
      (style.literalText literal).toList.map .char ++ tokens style k rest
    else
      .placeholder k :: ((style.castText argument literal).toList.map .char ++
        tokens style (k + 1) rest)

/-- The fixed text shows no placeholder. -/
def IsPlain (t : Template) : Prop := ∀ s, .text s ∈ t → Plain s

end Template

/-- The same of the pieces as of the steps they are made from. -/
def Piece.AllowsNext : Piece → Piece → Prop
  | .slot _ _, .text s => ClosesNumber s
  | .slot _ _, .slot _ _ => False
  | .text _, _ => True

theorem Script.isChain_template {script : Script} {t : Template}
    (h : script.template? = some t) (chain : script.IsChain Step.AllowsNext) :
    t.IsChain Piece.AllowsNext := by
  induction script, t, h using template_induction with
  | nil => exact List.IsChain.nil
  | text s rest t _ ih => exact (ih chain.tail).cons fun _ _ => trivial
  | enter d rest t _ ih => exact ih chain.tail
  | slot v argument literal rest t _ ht ih =>
    refine (ih chain.tail).cons ?_
    -- The next step is a text, and so is the piece that comes of it.
    cases rest with
    | nil =>
      cases ht
      exact fun _ h => nomatch h
    | cons next rest =>
      have allowed := chain.rel
      cases next with
      | text s =>
        obtain ⟨t, -, rfl⟩ := Option.map_eq_some_iff.mp ht
        rintro piece ⟨⟩
        exact allowed
      | enter d => exact allowed.elim
      | slot v' argument' => exact allowed.elim
      | unsupported n => exact allowed.elim

theorem Script.isPlain_template {script : Script} {t : Template} (h : script.template? = some t)
    (plain : ∀ s, .text s ∈ script → Plain s) : t.IsPlain := by
  induction script, t, h using template_induction with
  | nil => exact fun s hs => nomatch hs
  | text s rest t _ ih =>
    intro s' hs'
    rcases List.mem_cons.mp hs' with hs' | hs'
    · cases hs'
      exact plain s List.mem_cons_self
    · exact ih (fun s hs => plain s (List.mem_cons_of_mem _ hs)) s' hs'
  | enter d rest t _ ih => exact ih fun s hs => plain s (List.mem_cons_of_mem _ hs)
  | slot v argument literal rest t _ _ ih =>
    intro s' hs'
    rcases List.mem_cons.mp hs' with hs' | hs'
    · cases hs'
    · exact ih (fun s hs => plain s (List.mem_cons_of_mem _ hs)) s' hs'

theorem Argument.plain_declaredType {argument : Argument} {type : String}
    (h : argument.declaredType? = some type) : Plain type := by
  cases argument with
  | option o => cases o <;> cases h <;> decide
  | distance => cases h; decide
  | transposeCostOne => cases h
  | prefixMatch => cases h
  | slop => cases h; decide
  | factor => cases h; decide

theorem RangeType.plain_name (type : RangeType) : Plain type.name := by
  cases type <;> decide

theorem Literal.plain_sqlType (literal : Literal) : Plain literal.sqlType := by
  cases literal with
  | range s t => exact t.plain_name
  | string s => exact (by decide : Plain "text")
  | integer n => exact (by decide : Plain "bigint")
  | float x => exact (by decide : Plain "double precision")
  | boolean b => exact (by decide : Plain "boolean")
  | textArray ss => exact (by decide : Plain "text[]")

theorem Style.plain_castText (style : Style) (argument : Option Argument) (literal : Literal) :
    Plain (style.castText argument literal) := by
  unfold castText
  split
  · refine plain_append.mpr ⟨by decide, ?_⟩
    cases h : argument.bind Argument.declaredType? with
    | none => exact literal.plain_sqlType
    | some type =>
      obtain ⟨a, -, ha⟩ := Option.bind_eq_some_iff.mp h
      exact Argument.plain_declaredType ha
  · decide

theorem Style.plain_literalText_boolean (style : Style) {literal : Literal}
    (h : literal.kind = .boolean) : Plain (style.literalText literal) := by
  cases literal with
  | boolean b =>
    cases b with
    | false => exact (by decide : Plain "false")
    | true => exact (by decide : Plain "true")
  | string s => cases h
  | integer n => cases h
  | float x => cases h
  | range s t => cases h
  | textArray ss => cases h

theorem Style.castText_cases (style : Style) (argument : Option Argument) (literal : Literal) :
    style.castText argument literal = "" ∨ ClosesNumber (style.castText argument literal) := by
  unfold castText
  cases style.showsTypes with
  | false => exact Or.inl rfl
  | true => exact Or.inr ⟨':', by simp, by decide⟩

namespace Template

variable {style : Style}

theorem IsPlain.tail {piece : Piece} {t : Template} (h : IsPlain (piece :: t)) : t.IsPlain :=
  fun s hs => h s (List.mem_cons_of_mem _ hs)

/-- What is written behind the number of a placeholder does not continue it. -/
theorem endsNumber_bound {literal : Literal} {argument : Option Argument} {t : Template}
    (chain : List.IsChain Piece.AllowsNext (.slot literal argument :: t)) (k : Int) :
    Token.EndsNumber ((style.castText argument literal).toList ++ (t.bound style k).toList) := by
  rcases style.castText_cases argument literal with hcast | hcast
  · rw [hcast]
    cases t with
    | nil => exact fun c hc => nomatch hc
    | cons piece t =>
      have allowed := chain.rel
      cases piece with
      | text s =>
        rw [bound, String.toList_append]
        exact ClosesNumber.endsNumber_append allowed _
      | slot l a => exact allowed.elim
  · exact hcast.endsNumber_append _

theorem scan_bound {t : Template} (plain : t.IsPlain) (chain : t.IsChain Piece.AllowsNext)
    (k : Int) : Token.scan (t.bound style k).toList = t.tokens style k := by
  -- What is read so far never reaches into the next piece, so the pieces are read one by one.
  induction t generalizing k with
  | nil => rw [bound, tokens, String.toList_empty, Token.scan]
  | cons piece t ih =>
    have ih (k : Int) := ih plain.tail chain.tail k
    cases piece with
    | text s =>
      rw [bound, tokens, String.toList_append, Token.scan_plain (plain s List.mem_cons_self), ih]
    | slot literal argument =>
      rw [bound, tokens]
      by_cases hk : literal.kind = .boolean
      · rw [if_pos hk, if_pos hk, String.toList_append,
          Token.scan_plain (style.plain_literalText_boolean hk), ih]
      · rw [if_neg hk, if_neg hk, String.toList_append, Style.toList_placeholder,
          List.cons_append, List.append_assoc,
          Token.scan_placeholder k (endsNumber_bound chain (k + 1)),
          Token.scan_plain (style.plain_castText argument literal), ih]

theorem filterMap_number_chars (s : List Char) :
    (s.map Token.char).filterMap Token.number? = [] := by
  induction s with
  | nil => rfl
  | cons c s ih => exact ih

theorem numbers_tokens (t : Template) (k : Int) :
    (t.tokens style k).filterMap Token.number? =
      block k t.boundLiterals.length := by
  induction t generalizing k with
  | nil => rfl
  | cons piece t ih =>
    cases piece with
    | text s => rw [tokens, List.filterMap_append, filterMap_number_chars, ih]; rfl
    | slot literal argument =>
      rw [tokens, boundLiterals]
      by_cases hk : literal.kind = .boolean
      · rw [if_pos hk, if_pos hk, List.filterMap_append, filterMap_number_chars, ih]
        rfl
      · have number : Token.number? (.placeholder k) = some k := rfl
        rw [if_neg hk, if_neg hk, List.length_cons, block_succ, List.filterMap_cons_some number,
          List.filterMap_append, filterMap_number_chars, ih, List.nil_append]

/-- The placeholders in the bound text are numbered one after the other. -/
theorem placeholders_bound {t : Template} (plain : t.IsPlain)
    (chain : t.IsChain Piece.AllowsNext) (k : Int) :
    placeholders (t.bound style k) = block k t.boundLiterals.length := by
  rw [placeholders, scan_bound plain chain, numbers_tokens]

theorem flatMap_substitute_chars (f : Int → String) (s : List Char) :
    (s.map Token.char).flatMap (Token.substitute f) = s := by
  induction s with
  | nil => rfl
  | cons c s ih => exact congrArg (c :: ·) ih

theorem substitute_tokens (types : style.showsTypes = false) (t : Template) (k : Int)
    {f : Int → String}
    (hf : ∀ (i : ℕ) literal, t.boundLiterals[i]? = some literal → f (k + i) = style.literalText literal) :
    (t.tokens style k).flatMap (Token.substitute f) = (t.inline style).toList := by
  induction t generalizing k with
  | nil => rfl
  | cons piece t ih =>
    cases piece with
    | text s =>
      rw [tokens, inline, List.flatMap_append, flatMap_substitute_chars, ih k hf,
        String.toList_append]
    | slot literal argument =>
      rw [tokens, inline, String.toList_append]
      rw [boundLiterals] at hf
      by_cases hk : literal.kind = .boolean
      · rw [if_pos hk] at hf
        rw [if_pos hk, List.flatMap_append, flatMap_substitute_chars, ih k hf]
      · rw [if_neg hk] at hf
        have here : f k = style.literalText literal := by simpa using hf 0 literal rfl
        have later : ∀ (i : ℕ) l, (boundLiterals t)[i]? = some l → f (k + 1 + i) = style.literalText l := by
          intro i l hl
          have := hf (i + 1) l hl
          rwa [Int.natCast_add, Int.natCast_one, Int.add_comm (i : Int), ← Int.add_assoc] at this
        have cast : style.castText argument literal = "" := by simp [Style.castText, types]
        rw [if_neg hk, cast, List.flatMap_cons, Token.substitute, here]
        exact congrArg _ (ih (k + 1) later)

/-- Where no types are shown, the literals can be put in place of their placeholders. -/
theorem substitute_bound {t : Template} (plain : t.IsPlain)
    (chain : t.IsChain Piece.AllowsNext) (types : style.showsTypes = false) (k : Int)
    {f : Int → String}
    (hf : ∀ (i : ℕ) literal, t.boundLiterals[i]? = some literal → f (k + i) = style.literalText literal) :
    substitute f (t.bound style k) = t.inline style := by
  rw [substitute, scan_bound plain chain, substitute_tokens types t k hf, String.ofList_toList]

/-! ## Renumbering -/

theorem renumber_tokens (t : Template) (k d : Int) :
    (t.tokens style k).flatMap
        (Token.substitute fun n => "$" ++ String.ofList (Number.intText (n + d))) =
      (t.bound style (k + d)).toList := by
  induction t generalizing k with
  | nil => rfl
  | cons piece t ih =>
    cases piece with
    | text s =>
      rw [tokens, bound, List.flatMap_append, flatMap_substitute_chars, ih, String.toList_append]
    | slot literal argument =>
      rw [tokens, bound]
      by_cases hk : literal.kind = .boolean
      · rw [if_pos hk, if_pos hk, List.flatMap_append, flatMap_substitute_chars, ih,
          String.toList_append]
      · have next : k + 1 + d = k + d + 1 := by omega
        have number : ("$" ++ String.ofList (Number.intText (k + d))).toList =
            Token.mark :: Number.intText (k + d) := by
          simp [Token.mark]
        rw [if_neg hk, if_neg hk, List.flatMap_cons, List.flatMap_append,
          flatMap_substitute_chars, ih, next, String.toList_append, Style.toList_placeholder,
          Token.substitute, number, List.cons_append, List.cons_append, List.append_assoc]

theorem renumber_bound {t : Template} (plain : t.IsPlain) (chain : t.IsChain Piece.AllowsNext)
    (k d : Int) : renumber d (t.bound style k) = t.bound style (k + d) := by
  rw [renumber, substitute, scan_bound plain chain, renumber_tokens, String.ofList_toList]

/-! ## The places of the placeholders -/

theorem bound_append (t u : Template) (k : Int) :
    bound style k (t ++ u) = t.bound style k ++ u.bound style (k + t.boundLiterals.length) := by
  induction t generalizing k with
  | nil => simp [bound, boundLiterals]
  | cons piece t ih =>
    cases piece with
    | text s =>
      rw [List.cons_append, bound, bound, ih, String.append_assoc]
      rfl
    | slot literal argument =>
      rw [List.cons_append, bound, bound, boundLiterals]
      by_cases hk : literal.kind = .boolean
      · rw [if_pos hk, if_pos hk, if_pos hk, ih, String.append_assoc]
      · rw [if_neg hk, if_neg hk, if_neg hk, ih, String.append_assoc, List.length_cons]
        simp [Int.add_assoc, Int.add_comm 1]

/-- Every bound literal has a slot, before which there are slots for the earlier ones. -/
theorem exists_slot {t : Template} {i : ℕ} {literal : Literal}
    (h : t.boundLiterals[i]? = some literal) :
    ∃ (before : Template) (argument : Option Argument) (after : Template),
      t = before ++ .slot literal argument :: after ∧
      literal.kind ≠ .boolean ∧ (boundLiterals before).length = i := by
  induction t generalizing i with
  | nil => cases h
  | cons piece t ih =>
    cases piece with
    | text s =>
      obtain ⟨before, argument, after, rfl, hk, hi⟩ := ih h
      exact ⟨.text s :: before, argument, after, rfl, hk, hi⟩
    | slot l a =>
      rw [boundLiterals] at h
      by_cases hk : l.kind = .boolean
      · rw [if_pos hk] at h
        obtain ⟨before, argument, after, rfl, hkind, hi⟩ := ih h
        refine ⟨.slot l a :: before, argument, after, rfl, hkind, ?_⟩
        rw [boundLiterals, if_pos hk, hi]
      · rw [if_neg hk] at h
        cases i with
        | zero =>
          cases h
          exact ⟨[], a, t, rfl, hk, rfl⟩
        | succ i =>
          obtain ⟨before, argument, after, rfl, hkind, hi⟩ := ih h
          refine ⟨.slot l a :: before, argument, after, rfl, hkind, ?_⟩
          rw [boundLiterals, if_neg hk, List.length_cons, hi]

/-- The text around the placeholder of a bound literal. -/
theorem bound_around {t : Template} {i : ℕ} {literal : Literal}
    (h : t.boundLiterals[i]? = some literal) (k : Int) :
    ∃ (before : Template) (argument : Option Argument) (after : Template),
      t = before ++ .slot literal argument :: after ∧
      literal.kind ≠ .boolean ∧
      t.bound style k = before.bound style k ++ style.placeholder (k + i) argument literal ++
        after.bound style (k + i + 1) := by
  obtain ⟨before, argument, after, rfl, hk, rfl⟩ := exists_slot h
  refine ⟨before, argument, after, rfl, hk, ?_⟩
  rw [bound_append, bound, if_neg hk, String.append_assoc]

end Template

end SearchSql
