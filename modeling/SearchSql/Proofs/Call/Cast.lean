import SearchSql.Proofs.Call.Numbering

/-!
# Casts to numeric types

A placeholder may be cast to a type of numbers that holds only some of them. The casts are read off
the text, each behind the number of its placeholder, and what is read are the types for which the
slots of the template are written (`typedPlaceholders_bound`).
-/

namespace SearchSql

/-- The types of numbers that a placeholder is cast to. -/
inductive NumericType where
  | integer
  | bigint
  | real
  deriving DecidableEq, Repr

namespace NumericType

def name : NumericType → String
  | .integer => "integer"
  | .bigint => "bigint"
  | .real => "real"

def all : List NumericType := [.integer, .bigint, .real]

def ofName? (s : String) : Option NumericType := all.find? (·.name = s)

/-- The type to which what follows casts a placeholder. -/
def cast? (rest : List Token) : Option NumericType :=
  all.find? fun type => (("::" ++ type.name).toList.map Token.char).isPrefixOf rest

end NumericType

/-- The placeholders that are cast to a type of numbers, from left to right. -/
def Token.typed : List Token → List (Int × NumericType)
  | [] => []
  | .char _ :: rest => typed rest
  | .placeholder k :: rest => (NumericType.cast? rest).toList.map (k, ·) ++ typed rest

def typedPlaceholders (s : String) : List (Int × NumericType) :=
  Token.typed (Token.scan s.toList)

/-- The type of numbers for which a literal is bound: that of the argument, or its own. -/
def Literal.numericType? (literal : Literal) (argument : Option Argument) : Option NumericType :=
  NumericType.ofName? ((argument.bind Argument.declaredType?).getD literal.sqlType)

/-- The types to which placeholders are cast. -/
def castTypes : List String :=
  ["text", "bigint", "double precision", "boolean", "text[]", "integer", "real"] ++
    [RangeType.int8, .numeric, .date, .timestamptz].map RangeType.name

theorem RangeType.name_mem_castTypes (type : RangeType) : type.name ∈ castTypes := by
  cases type <;> decide

theorem Literal.sqlType_mem_castTypes (literal : Literal) : literal.sqlType ∈ castTypes := by
  cases literal with
  | range s type => exact type.name_mem_castTypes
  | string s => exact (by decide : "text" ∈ castTypes)
  | integer n => exact (by decide : "bigint" ∈ castTypes)
  | float x => exact (by decide : "double precision" ∈ castTypes)
  | boolean b => exact (by decide : "boolean" ∈ castTypes)
  | textArray ss => exact (by decide : "text[]" ∈ castTypes)

theorem Argument.declaredType_mem_castTypes {argument : Argument} {type : String}
    (h : argument.declaredType? = some type) : type ∈ castTypes := by
  cases argument with
  | option o => cases o <;> cases h <;> decide
  | _ => cases h <;> decide

/-- A cast is read, whatever follows it: none of the types begins with another one. -/
theorem NumericType.cast?_append (rest : List Token) :
    ∀ type ∈ castTypes, cast? (("::" ++ type).toList.map .char ++ rest) = ofName? type := by
  simp only [castTypes, List.cons_append, List.nil_append, List.map_cons, List.map_nil,
    List.forall_mem_cons]
  exact ⟨rfl, rfl, rfl, rfl, rfl, rfl, rfl, rfl, rfl, rfl, rfl, List.forall_mem_nil _⟩

theorem NumericType.cast?_castText (argument : Option Argument) (literal : Literal)
    (rest : List Token) :
    cast? ((Dialect.paradedb.style.castText argument literal).toList.map .char ++ rest) =
      literal.numericType? argument := by
  refine cast?_append rest _ ?_
  cases h : argument.bind Argument.declaredType? with
  | none => exact literal.sqlType_mem_castTypes
  | some type =>
    obtain ⟨argument, -, declared⟩ := Option.bind_eq_some_iff.mp h
    exact Argument.declaredType_mem_castTypes declared

theorem Token.typed_chars (s : List Char) (rest : List Token) :
    typed (s.map .char ++ rest) = typed rest := by
  induction s with
  | nil => rfl
  | cons c s ih => exact ih

namespace Template

/-- The slots that have placeholders. -/
def boundSlots : Template → List (Literal × Option Argument)
  | [] => []
  | .text _ :: rest => boundSlots rest
  | .slot literal argument :: rest =>
    if literal.kind = .boolean then boundSlots rest else (literal, argument) :: boundSlots rest

theorem boundLiterals_eq (t : Template) : t.boundLiterals = t.boundSlots.map Prod.fst := by
  induction t with
  | nil => rfl
  | cons piece t ih =>
    cases piece with
    | text s => exact ih
    | slot literal argument =>
      rw [boundLiterals, boundSlots]
      by_cases hk : literal.kind = .boolean
      · rw [if_pos hk, if_pos hk, ih]
      · rw [if_neg hk, if_neg hk, ih, List.map_cons]

/-- The casts of slots that are numbered from `k` on. -/
def typedFrom (k : Int) : List (Literal × Option Argument) → List (Int × NumericType)
  | [] => []
  | (literal, argument) :: rest =>
    (literal.numericType? argument).toList.map (k, ·) ++ typedFrom (k + 1) rest

theorem mem_typedFrom {k j : Int} {type : NumericType}
    {slots : List (Literal × Option Argument)} :
    (j, type) ∈ typedFrom k slots ↔ ∃ (i : ℕ) (literal : Literal) (argument : Option Argument),
      slots[i]? = some (literal, argument) ∧ j = k + i ∧
        literal.numericType? argument = some type := by
  induction slots generalizing k with
  | nil => simp [typedFrom]
  | cons slot slots ih =>
    obtain ⟨literal, argument⟩ := slot
    rw [typedFrom, List.mem_append, ih]
    constructor
    · rintro (here | ⟨i, l, a, later, rfl, htype⟩)
      · obtain ⟨type', htype, same⟩ := List.mem_map.mp here
        cases same
        exact ⟨0, literal, argument, rfl, by simp, Option.mem_toList.mp htype⟩
      · refine ⟨i + 1, l, a, later, ?_, htype⟩
        push_cast
        omega
    · rintro ⟨_ | i, l, a, there, rfl, htype⟩
      · cases there
        exact .inl (List.mem_map.mpr ⟨type, Option.mem_toList.mpr htype, by simp⟩)
      · refine .inr ⟨i, l, a, there, ?_, htype⟩
        push_cast
        omega

theorem typed_tokens (t : Template) (k : Int) :
    Token.typed (t.tokens Dialect.paradedb.style k) = typedFrom k t.boundSlots := by
  induction t generalizing k with
  | nil => rfl
  | cons piece t ih =>
    cases piece with
    | text s => rw [tokens, Token.typed_chars, ih, boundSlots]
    | slot literal argument =>
      rw [tokens, boundSlots]
      by_cases hk : literal.kind = .boolean
      · rw [if_pos hk, if_pos hk, Token.typed_chars, ih]
      · rw [if_neg hk, if_neg hk, Token.typed, NumericType.cast?_castText, Token.typed_chars, ih,
          typedFrom]

/-- The casts that are read in a bound text are those of its slots. -/
theorem typedPlaceholders_bound {t : Template} (plain : t.IsPlain)
    (chain : t.IsChain Piece.AllowsNext) (k : Int) :
    typedPlaceholders (t.bound Dialect.paradedb.style k) = typedFrom k t.boundSlots := by
  rw [typedPlaceholders, scan_bound plain chain, typed_tokens]

end Template

namespace Script

/-- The slots that have placeholders come from the steps of the script. -/
theorem mem_boundSlots {script : Script} {t : Template} (h : script.template? = some t)
    {literal : Literal} {argument : Option Argument} :
    (literal, argument) ∈ t.boundSlots ↔
      ∃ v, .slot v argument ∈ script ∧ v.encode = .ok literal ∧ literal.kind ≠ .boolean := by
  induction script, t, h using template_induction with
  | nil => simp [Template.boundSlots]
  | text s rest t _ ih => simp [Template.boundSlots, ih]
  | enter d rest t _ ih => simp [ih]
  | slot v a l rest t hv _ ih =>
    have split : (literal, argument) ∈ Template.boundSlots (.slot l a :: t) ↔
        ((literal, argument) = (l, a) ∧ l.kind ≠ .boolean) ∨ (literal, argument) ∈ t.boundSlots := by
      rw [Template.boundSlots]
      by_cases hk : l.kind = .boolean
      · simp [hk]
      · simp [hk]
    rw [split, ih]
    constructor
    · rintro (⟨same, hk⟩ | ⟨w, hw, rest⟩)
      · cases same
        exact ⟨v, List.mem_cons_self, hv, hk⟩
      · exact ⟨w, List.mem_cons_of_mem _ hw, rest⟩
    · rintro ⟨w, hw, encoded, hk⟩
      rcases List.mem_cons.mp hw with same | hw
      · cases same
        cases hv.symm.trans encoded
        exact .inl ⟨rfl, hk⟩
      · exact .inr ⟨w, hw, encoded, hk⟩

end Script

end SearchSql
