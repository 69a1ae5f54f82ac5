import SearchSql.Predicate.Simplify
import SearchSql.Value.Access

/-!
# Folding

A search is built up from predicates that are joined to what came before them. Folding makes one
predicate of the whole sequence, by one of two rules of grouping.
-/

namespace SearchSql

/-- How a predicate is joined to what came before it. -/
inductive JoinOp where
  | and
  | or
  | orAllPrior
  deriving DecidableEq, Repr

namespace JoinOp

def name : JoinOp → String
  | .and => "and"
  | .or => "or"
  | .orAllPrior => "or_all_prior"

def all : List JoinOp := [.and, .or, .orAllPrior]

def ofName? (s : String) : Option JoinOp := all.find? (·.name = s)

end JoinOp

/-- The rule of grouping: strictly in order, or with `and` binding tighter than `or`. By either,
`orAllPrior` sets all that came before it against what follows. -/
inductive FoldStrategy where
  | leftToRight
  | andPrecedence
  deriving DecidableEq, Repr

namespace FoldStrategy

def name : FoldStrategy → String
  | .leftToRight => "left_to_right"
  | .andPrecedence => "and_precedence"

def all : List FoldStrategy := [.leftToRight, .andPrecedence]

def ofName? (s : String) : Option FoldStrategy := all.find? (·.name = s)

def ofValue : Value → Except Misuse FoldStrategy := member .foldStrategy ofName?

end FoldStrategy

/-- A predicate and how it is joined to what came before it. -/
structure Entry (α : Type) where
  op : JoinOp
  node : Predicate α

namespace Entry

variable {α : Type}

/-- The combination of two predicates; a first one of the same kind is extended. -/
def combine (kind : Kind) (acc node : Predicate α) : Predicate α :=
  match acc with
  | .boolean k first rest =>
    if k = kind then .boolean kind first (rest ++ [node]) else .boolean kind acc [node]
  | acc => .boolean kind acc [node]

/-- Joins a predicate to all that came before it. -/
def joinTo (acc : Predicate α) (entry : Entry α) : Predicate α :=
  match entry.op with
  | .and => combine .must acc entry.node
  | .or => combine .should acc entry.node
  | .orAllPrior => .boolean .should acc [entry.node]

def foldLeftToRight (first : Predicate α) (entries : List (Entry α)) : Predicate α :=
  entries.foldl joinTo first

/-- Predicates that are joined by `and`. -/
structure Group (α : Type) where
  first : Predicate α
  rest : List (Predicate α)

def Group.close (g : Group α) : Predicate α :=
  if g.rest.isEmpty then g.first else .boolean .must g.first g.rest

/-- Groups that are joined by `or`, the current one last. -/
structure Groups (α : Type) where
  earlier : List (Group α)
  current : Group α

def Groups.close (gs : Groups α) : Predicate α :=
  match gs.earlier with
  | [] => gs.current.close
  | g :: more => .boolean .should g.close (more.map Group.close ++ [gs.current.close])

/-- Adds a predicate to the current group, opens a group for it, or closes all groups into one
first. -/
def Groups.add (gs : Groups α) (entry : Entry α) : Groups α :=
  match entry.op with
  | .and => ⟨gs.earlier, ⟨gs.current.first, gs.current.rest ++ [entry.node]⟩⟩
  | .or => ⟨gs.earlier ++ [gs.current], ⟨entry.node, []⟩⟩
  | .orAllPrior => ⟨[⟨gs.close, []⟩], ⟨entry.node, []⟩⟩

def foldAndPrecedence (first : Predicate α) (entries : List (Entry α)) : Predicate α :=
  (entries.foldl Groups.add ⟨[], ⟨first, []⟩⟩).close

def fold : FoldStrategy → Predicate α → List (Entry α) → Predicate α
  | .leftToRight => foldLeftToRight
  | .andPrecedence => foldAndPrecedence

def simplify (entry : Entry α) : Entry α := ⟨entry.op, entry.node.simplify⟩

/-- One predicate for the whole sequence; none for an empty one. How the first is joined does not
matter. -/
def normalize (strategy : FoldStrategy) : List (Entry α) → Option (Predicate α)
  | [] => none
  | first :: rest => some (fold strategy first.node.simplify (rest.map simplify))

/-- Normalizes by a rule that is given by its name, which is looked at only if there is something
to fold. -/
def normalizeBy (strategy : Value) (entries : List (Entry α)) :
    Except Misuse (Option (Predicate α)) :=
  if entries.isEmpty then .ok none
  else (FoldStrategy.ofValue strategy).map fun s => normalize s entries

end Entry

end SearchSql
