import SearchSql.Text.Character
import SearchSql.Text.Quoted

/-!
# Splitting lists of columns

A list is split at the commas that stand outside parentheses and quotes.
-/

namespace SearchSql.Catalog

/-- Where a reader stands in a list: how many parentheses are open, and which quote, if any. -/
structure Place where
  depth : Int
  quote : Option Char
  deriving DecidableEq, Repr

namespace Place

def start : Place := ⟨0, none⟩

/-- Whether a comma here is one between two items. -/
def isTop (p : Place) : Bool := p.depth = 0 && p.quote.isNone

/-- The place behind a character. -/
def step (p : Place) (c : Char) : Place :=
  match p.quote with
  | some q => if c = q then { p with quote := none } else p
  | none =>
    if c = Text.apostrophe ∨ c = Text.quotationMark then { p with quote := some c }
    else if c = '(' then { p with depth := p.depth + 1 }
    else if c = ')' then { p with depth := p.depth - 1 }
    else p

end Place

/-- The texts between the commas at the top level. What follows the last comma is left out if there
is nothing. -/
def cut : Place → List Char → List Char → List (List Char)
  | _, current, [] => if current.isEmpty then [] else [current]
  | p, current, c :: rest =>
    if c = ',' ∧ p.isTop then current :: cut p [] rest
    else cut (p.step c) (current ++ [c]) rest

/-- The items of a list, without the blanks around them and without empty ones. -/
def splitTopLevel (s : List Char) : List (List Char) :=
  ((cut .start [] s).map Text.trim).filter (! ·.isEmpty)

end SearchSql.Catalog
