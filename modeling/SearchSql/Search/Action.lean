import SearchSql.Search.Basic

/-!
# Actions on a search

The operations on a search that is kept in one place. An action checks the search and changes it
step by step; where it fails, the changes that it has made up to there stay.
-/

namespace SearchSql

namespace Search

/-- A computation on a search that is kept. What it has changed before it fails stays changed. -/
abbrev Action := ExceptT SearchError (StateM Search)

namespace Action

/-- The search after the action, and what has come of it. -/
def on {α : Type} (action : Action α) (s : Search) : Search × Except SearchError α :=
  let (result, s) := action.run.run s
  (s, result)

/-- What has come of a check that changes nothing. -/
def ofExcept {α : Type} (result : Except SearchError α) : Action α := ExceptT.mk (pure result)

def requireOpen : Action Unit := do
  let s ← get
  if s.isFinalized then throw (.reopened s.binding.aliasName)

/-- Adds a predicate with the named operator. -/
def add (node how : Value) : Action Unit := do
  requireOpen
  match node with
  | .predicate p =>
    let op ← ofExcept (requireJoin how)
    modify fun s => { s with entries := s.entries ++ [⟨op, p⟩] }
  | v => throw (.notPredicate v.typeName)

/-- Sets an option; it replaces what was set before. -/
def setOption (name value : Value) : Action Unit := do
  requireOpen
  let option ← ofExcept ((SearchOption.check name value).mapError .option)
  modify fun s => { s with options := s.options.put option value }

/-- Checks all predicates one after the other, then that there are some if there are options. -/
def validate : Action Unit := do
  let s ← get
  s.entries.forM fun e => ofExcept ((s.binding.validate e.node).mapError .validation)
  if s.entries.isEmpty && ! s.options.isEmpty then
    throw (.optionsAlone s.binding.aliasName s.optionsSet)

/-- Validates and folds what was collected, closes the search and gives it its tree; a closed one
keeps the tree it has. -/
def finalize (strategy : Value) : Action (Option SearchTree) := do
  let s ← get
  match s.closed with
  | some tree => return tree
  | none =>
    validate
    let root ← ofExcept ((Entry.normalizeBy strategy s.entries).mapError .misuse)
    modify fun s => { s with closed := some none }
    if let some p := root then
      modify fun s => { s with closed := some (some ⟨s.binding, p, s.options⟩) }
    return (← get).closed.join

theorem on_pure {α : Type} (a : α) (s : Search) :
    on (pure a) s = (s, .ok a) := rfl

theorem on_get (s : Search) : on get s = (s, .ok s) := rfl

theorem on_ofExcept {α : Type} (result : Except SearchError α) (s : Search) :
    on (ofExcept result) s = (s, result) := rfl

theorem on_bind_ok {α β : Type} {action : Action α} {s s' : Search} {a : α}
    (h : on action s = (s', .ok a)) (next : α → Action β) :
    on (action >>= next) s = on (next a) s' := by
  have ran : action.run.run s = (.ok a, s') := by
    have parts := Prod.ext_iff.mp h
    exact Prod.ext parts.2 parts.1
  have stepped : (action >>= next).run.run s = (next a).run.run s' := by
    rw [ExceptT.run_bind, StateT.run_bind, ran]
    rfl
  rw [on, stepped, on]

theorem on_bind_error {α β : Type} {action : Action α} {s s' : Search} {e : SearchError}
    (h : on action s = (s', .error e)) (next : α → Action β) :
    on (action >>= next) s = (s', .error e) := by
  have ran : action.run.run s = (.error e, s') := by
    have parts := Prod.ext_iff.mp h
    exact Prod.ext parts.2 parts.1
  have stepped : (action >>= next).run.run s = (.error e, s') := by
    rw [ExceptT.run_bind, StateT.run_bind, ran]
    rfl
  rw [on, stepped]

end Action

end Search

end SearchSql
