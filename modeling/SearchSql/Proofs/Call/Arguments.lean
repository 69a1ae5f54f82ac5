import SearchSql.Proofs.Call.Reading
import SearchSql.Proofs.Literal.Encoding

/-!
# Reading arguments back

The arguments of a leaf are a row of names and literals. The field and the row can be read off the
call (`tells_leaf`), and the optional arguments off the row (`rows_injective`).
-/

namespace SearchSql

open Dialect Sql Script

/-- An argument with its name. -/
def rowText (row : String × Literal) : List Char := row.1.toList ++ (" => ".toList ++ row.2.text)

/-- The names of arguments have no blanks. -/
theorem Tells.named {m n : String} {P : Prop} {a b : List Char} (hm : ' ' ∉ m.toList)
    (hn : ' ' ∉ n.toList) (h : Tells P a b) :
    Tells (m = n ∧ P) (m.toList ++ (" => ".toList ++ a)) (n.toList ++ (" => ".toList ++ b)) := by
  have arrow : " => ".toList = ' ' :: "=> ".toList := by decide
  intro r s hr hs same
  simp only [arrow, List.append_assoc, List.cons_append] at same
  obtain ⟨names, values⟩ := before_inj hm hn same
  rw [← List.append_assoc, ← List.append_assoc] at values
  obtain ⟨hP, rests⟩ := h.after "=> ".toList r s hr hs values
  exact ⟨⟨String.toList_injective names, hP⟩, rests⟩

/-- The name of an argument and its value, as they stand in a script. -/
inductive Argues : String × Script → String × Literal → Prop where
  | mk {name : String} {v : Value} {literal : Literal} (argument : Option Argument)
      (hname : ' ' ∉ name.toList) (hv : v.encode = .ok literal) :
      Argues (name, [.slot v argument]) (name, literal)

theorem Argues.text {arg : String × Script} {row : String × Literal} (h : Argues arg row) :
    paradedb.style.argumentText arg = rowText row := by
  obtain ⟨argument, -, hv⟩ := h
  rw [Style.argumentText, inline_slot hv]
  rfl

namespace Tells

variable {P Q : Prop} {a b c d : List Char}

/-- A text that is followed by another one, which begins where the first has to stop. -/
theorem append (h : Tells P a b) (hc : ∀ r, Stops r → Stops (c ++ r))
    (hd : ∀ r, Stops r → Stops (d ++ r)) (h' : Tells Q c d) : Tells (P ∧ Q) (a ++ c) (b ++ d) := by
  intro r s hr hs same
  rw [List.append_assoc, List.append_assoc] at same
  obtain ⟨hP, rests⟩ := h _ _ (hc r hr) (hd s hs) same
  obtain ⟨hQ, rests⟩ := h' r s hr hs rests
  exact ⟨⟨hP, hQ⟩, rests⟩

theorem closed (h : Tells P a b) : Tells P (a ++ [')']) (b ++ [')']) := by
  intro r s _ _ same
  rw [List.append_assoc, List.append_assoc] at same
  obtain ⟨hP, rests⟩ := h _ _ (.parenthesis r) (.parenthesis s) same
  exact ⟨hP, (List.cons.inj rests).2⟩

theorem call (h : Tells P a b) (function : List Char) :
    Tells P (function ++ '(' :: a) (function ++ '(' :: b) := by
  rw [List.append_cons function '(' a, List.append_cons function '(' b]
  exact h.after _

/-- The items of a row in the last argument of a call. -/
theorem row {α β : Type} {f : α → List Char} {g : β → List Char} {R : α → β → Prop} {x : α}
    {xs : List α} {y : β} {ys : List β}
    (h : ∀ x' ∈ x :: xs, ∀ y' ∈ y :: ys, Tells (R x' y') (f x') (g y')) :
    Tells (List.Forall₂ R (x :: xs) (y :: ys)) (f x ++ (behindCommas f xs ++ [']', ')']))
      (g y ++ (behindCommas g ys ++ [']', ')'])) := by
  intro r s _ _ same
  simp only [List.append_assoc, List.cons_append, List.nil_append] at same
  obtain ⟨items, rests⟩ := row_inj (by decide) (.bracket _) (.bracket _) h same
  exact ⟨items, (List.cons.inj rests).2⟩

end Tells

/-- An optional argument, if it is given. -/
def optionalRow {α : Type} (name : String) (f : α → Literal) (given : Option α) :
    List (String × Literal) :=
  given.toList.map fun a => (name, f a)

def FuzzyOptions.rows (options : FuzzyOptions) : List (String × Literal) :=
  optionalRow "distance" (fun d => .integer d.val) options.distance ++
    optionalRow "transposition_cost_one" .boolean options.transposeCostOne ++
    optionalRow "prefix" .boolean options.prefixMatch

end SearchSql
