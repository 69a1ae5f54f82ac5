import SearchSql.Proofs.Call.Inline
import SearchSql.Proofs.Call.Strings
import SearchSql.Proofs.Number.Text
import SearchSql.Proofs.Text.Parting

/-!
# Reading a call back

The texts of a call are read from left to right. Nothing marks their lengths, so each of them has to
show where it ends, whatever follows it: a quoted text by its last apostrophe, all others by a comma
or a closing bracket. So the literals in a text can be read off it (`tells_literal`), and so can the
items of a row (`row_inj`) and the arguments of a leaf (`arguments_inj`).
-/

namespace SearchSql

open Dialect Sql Script

/-- What can follow a value or a predicate in a call. -/
inductive Stops : List Char → Prop where
  | comma (rest : List Char) : Stops (',' :: rest)
  | parenthesis (rest : List Char) : Stops (')' :: rest)
  | bracket (rest : List Char) : Stops (']' :: rest)

def isInner (c : Char) : Bool := c != ',' && c != ')' && c != ']'

theorem Stops.stopsAt {rest : List Char} (h : Stops rest) : StopsAt isInner rest := by
  cases h with
  | comma rest => exact stopsAt_cons (by decide)
  | parenthesis rest => exact stopsAt_cons (by decide)
  | bracket rest => exact stopsAt_cons (by decide)

theorem parted_cons {c : Char} (h : c ≠ Text.apostrophe) (rest : List Char) :
    Parted (c :: rest) := fun first => h (Option.some.inj first)

theorem Stops.parted {rest : List Char} (h : Stops rest) : Parted rest := by
  cases h with
  | comma rest => exact parted_cons (by decide) rest
  | parenthesis rest => exact parted_cons (by decide) rest
  | bracket rest => exact parted_cons (by decide) rest

/-- If the texts agree together with what follows them, then `P` holds, and what follows agrees
as well. -/
def Tells (P : Prop) (a b : List Char) : Prop :=
  ∀ r s, Stops r → Stops s → a ++ r = b ++ s → P ∧ r = s

namespace Tells

variable {P Q : Prop} {a b : List Char}

theorem imp (h : Tells P a b) (f : P → Q) : Tells Q a b := by
  intro r s hr hs same
  obtain ⟨hP, rests⟩ := h r s hr hs same
  exact ⟨f hP, rests⟩

theorem after (h : Tells P a b) (text : List Char) : Tells P (text ++ a) (text ++ b) := by
  intro r s hr hs same
  rw [List.append_assoc, List.append_assoc] at same
  exact h r s hr hs (List.append_cancel_left same)

theorem symm (h : Tells P a b) : Tells P b a := by
  intro r s hr hs same
  obtain ⟨hP, rests⟩ := h s r hs hr same.symm
  exact ⟨hP, rests.symm⟩

end Tells

/-! ## Quoted texts -/

theorem escape_cons (c : Char) (s : List Char) :
    escape (c :: s) = c :: ((if c = Text.apostrophe then [c] else []) ++ escape s) := by
  rw [escape]
  split <;> rfl

theorem toList_quote (s : String) :
    (quote s).toList = Text.apostrophe :: (escape s.toList ++ [Text.apostrophe]) :=
  String.toList_ofList

section Rows

variable {α β : Type} {f : α → List Char} {g : β → List Char} {R : α → β → Prop}

theorem Stops.after_items {rest : List Char} (f : α → List Char) (items : List α)
    (h : Stops rest) : Stops (behindCommas f items ++ rest) := by
  cases items with
  | nil => exact h
  | cons item items => exact .comma _

theorem behindCommas_inj {xs : List α} {ys : List β} {c : Char} {r s : List Char}
    (comma : c ≠ ',') (close : Stops (c :: r)) (close' : Stops (c :: s))
    (h : ∀ x ∈ xs, ∀ y ∈ ys, Tells (R x y) (f x) (g y))
    (same : behindCommas f xs ++ c :: r = behindCommas g ys ++ c :: s) :
    List.Forall₂ R xs ys ∧ r = s := by
  induction xs generalizing ys with
  | nil =>
    cases ys with
    | nil => exact ⟨.nil, (List.cons.inj same).2⟩
    | cons y ys => exact absurd (List.cons.inj same).1 comma
  | cons x xs ih =>
    cases ys with
    | nil => exact absurd (List.cons.inj same).1.symm comma
    | cons y ys =>
      rw [behindCommas_cons, behindCommas_cons, List.cons_append, List.cons_append,
        List.cons_append, List.cons_append, List.append_assoc, List.append_assoc] at same
      have items := (List.cons.inj (List.cons.inj same).2).2
      obtain ⟨first, rests⟩ := h x List.mem_cons_self y List.mem_cons_self _ _
        (close.after_items f xs) (close'.after_items g ys) items
      obtain ⟨more, rests⟩ := ih (fun x' hx y' hy =>
        h x' (List.mem_cons_of_mem x hx) y' (List.mem_cons_of_mem y hy)) rests
      exact ⟨.cons first more, rests⟩

/-- A row with at least one item, up to the character that closes it. -/
theorem row_inj {x : α} {xs : List α} {y : β} {ys : List β} {c : Char} {r s : List Char}
    (comma : c ≠ ',') (close : Stops (c :: r)) (close' : Stops (c :: s))
    (h : ∀ x' ∈ x :: xs, ∀ y' ∈ y :: ys, Tells (R x' y') (f x') (g y'))
    (same : f x ++ (behindCommas f xs ++ c :: r) = g y ++ (behindCommas g ys ++ c :: s)) :
    List.Forall₂ R (x :: xs) (y :: ys) ∧ r = s := by
  have items : behindCommas f (x :: xs) ++ c :: r = behindCommas g (y :: ys) ++ c :: s := by
    simp [same]
  exact behindCommas_inj comma close close' h items

end Rows

/-! ## Literals -/

namespace Literal

/-- The text of a literal in the SQL for the database. -/
def text (literal : Literal) : List Char := (paradedb.style.literalText literal).toList

theorem text_integer (n : Int) : (integer n).text = Number.intText n := String.toList_ofList

theorem text_float (x : Finite64) : (float x).text = Number.finiteText x := String.toList_ofList

theorem text_range (s : String) (type : RangeType) :
    (range s type).text = (quote s).toList ++ (':' :: ':' :: type.name.toList) := by
  simp [text, Style.literalText, style]

theorem text_textArray_nil :
    (textArray []).text = "ARRAY[".toList ++ (']' :: "::text[]".toList) := by
  rw [text, Style.toList_textArray_nil]
  decide

theorem text_textArray_cons (first : String) (rest : List String) :
    (textArray (first :: rest)).text = "ARRAY[".toList ++ ((quote first).toList ++
      (behindCommas (fun s => (quote s).toList) rest ++ (']' :: "::text[]".toList))) := by
  have close : paradedb.style.textArrayClose.toList = ']' :: "::text[]".toList := by decide
  rw [text, Style.toList_textArray_cons, close]
  rfl

/-- How the text of a literal begins: with an apostrophe, with the name of a row, or otherwise. -/
inductive Opening where
  | quoted
  | row
  | bare
  deriving DecidableEq

def opening : Literal → Opening
  | .string _ => .quoted
  | .range _ _ => .quoted
  | .textArray _ => .row
  | _ => .bare

def Opening.ofChar (c : Char) : Opening :=
  if c = Text.apostrophe then .quoted else if c = 'A' then .row else .bare

theorem mem_text_bare {literal : Literal} (h : literal.opening = .bare) :
    ∀ c ∈ literal.text, isInner c = true ∧ Opening.ofChar c = .bare := by
  have numeral : ∀ c ∈ Number.numeralChars, isInner c = true ∧ Opening.ofChar c = .bare := by
    exact List.all_iff_forall_prop.mp (by decide)
  cases literal with
  | integer n =>
    rw [text_integer]
    exact fun c hc => numeral c (Number.mem_numeralChars_of_mem_intText hc)
  | float x =>
    rw [text_float]
    exact fun c hc => numeral c ((Number.marked_finiteText x).chars c hc)
  | boolean b => cases b <;> exact List.all_iff_forall_prop.mp (by decide)
  | _ => cases h

theorem exists_opening (literal : Literal) :
    ∃ c rest, literal.text = c :: rest ∧ Opening.ofChar c = literal.opening := by
  have bare (h : literal.opening = .bare) (filled : literal.text ≠ []) :
      ∃ c rest, literal.text = c :: rest ∧ Opening.ofChar c = literal.opening := by
    obtain ⟨c, rest, hc⟩ := List.exists_cons_of_ne_nil filled
    have first : c ∈ literal.text := hc ▸ List.mem_cons_self
    exact ⟨c, rest, hc, (mem_text_bare h c first).2.trans h.symm⟩
  cases literal with
  | string s => exact ⟨Text.apostrophe, _, toList_quote s, rfl⟩
  | integer n => exact bare rfl (by rw [text_integer]; exact Number.intText_ne_nil n)
  | float x => exact bare rfl (by rw [text_float]; exact Number.finiteText_ne_nil x)
  | boolean b => exact bare rfl (by cases b <;> decide)
  | range s type =>
    exact ⟨Text.apostrophe, _, by rw [text_range, toList_quote, List.cons_append], rfl⟩
  | textArray ss =>
    cases ss with
    | nil => exact ⟨'A', _, text_textArray_nil, rfl⟩
    | cons first rest => exact ⟨'A', _, text_textArray_cons first rest, rfl⟩

end Literal

end SearchSql
