import SearchSql.Call.Emission
import SearchSql.Text.UpperCase

/-!
# Statements

A SELECT over one or more relations, some of which are searched. The plain clauses are kept as
they are given; the predicates and options are collected by alias until the statement is
finalized. Then each searched relation is replaced by its search call.
-/

namespace SearchSql

/-- How a relation is joined to those before it. -/
structure Join where
  kind : String
  condition : Option String
  deriving DecidableEq, Repr

/-- A relation of the statement under its alias; the first one is not joined. -/
structure RelationRef where
  relation : String
  aliasName : String
  join : Option Join
  deriving DecidableEq, Repr

structure Statement where
  bindings : Bindings
  strategy : FoldStrategy
  refs : List RelationRef
  searches : List Search
  trees : Option (List SearchTree)
  columns : List String
  conditions : List String
  orderings : List String

inductive StatementError where
  | secondFrom (relation : String) (aliases : List String)
  | joinFirst (relation : String)
  | joinKind (kind : String)
  | noCondition (kind relation : String)
  | name (e : NameError)
  | aliasTaken (aliasName relation : String)
  | reopened (aliasName : String)
  | unknownAlias (aliasName : String) (known : List String)
  | binding (e : BindingError)
  | search (e : SearchError)
  | noFrom
  | emission (e : EmissionError)

namespace Statement

def new (registry : Registry) (strategy : FoldStrategy) : Statement :=
  ⟨.ofRegistry registry, strategy, [], [], none, [], [], []⟩

def registry (s : Statement) : Registry := s.bindings.registry

def aliases (s : Statement) : List String := s.refs.map (·.aliasName)

def isFinalized (s : Statement) : Bool := s.trees.isSome

def ref? (s : Statement) (aliasName : String) : Option RelationRef :=
  s.refs.find? (·.aliasName = aliasName)

def search? (s : Statement) (aliasName : String) : Option Search :=
  s.searches.find? (·.binding.aliasName = aliasName)

/-! ## Clauses -/

/-- An alias that is given, or else the name of the relation without its schema. -/
def aliasOf (relation : String) : Option String → String
  | some a => if a.isEmpty then Name.lastPart relation else a
  | none => Name.lastPart relation

def addRef (s : Statement) (ref : RelationRef) : Except StatementError Statement := do
  (Name.checkRelation ref.relation).mapError .name
  (Name.check ref.aliasName).mapError .name
  match s.ref? ref.aliasName with
  | some other => throw (.aliasTaken ref.aliasName other.relation)
  | none => return { s with refs := s.refs ++ [ref] }

/-- Sets the first relation. -/
def selectFrom (s : Statement) (relation : String) (aliasName : Option String) :
    Except StatementError Statement :=
  if ! s.refs.isEmpty then .error (.secondFrom relation s.aliases)
  else s.addRef ⟨relation, aliasOf relation aliasName, none⟩

/-- The kinds of join in the order in which messages list them. -/
def joinKinds : List String := ["CROSS", "FULL", "INNER", "LEFT", "RIGHT"]

def isMissing : Option String → Bool
  | none => true
  | some t => t.isEmpty

/-- Joins a further relation. Only a cross join has no condition. -/
def join (s : Statement) (relation : String) (aliasName condition : Option String)
    (kind : String) : Except StatementError Statement :=
  if s.refs.isEmpty then .error (.joinFirst relation)
  else
    let kind := Text.upper kind
    if ! joinKinds.contains kind then .error (.joinKind kind)
    else if kind ≠ "CROSS" ∧ isMissing condition then .error (.noCondition kind relation)
    else s.addRef ⟨relation, aliasOf relation aliasName, some ⟨kind, condition⟩⟩

def addColumns (s : Statement) (columns : List String) : Statement :=
  { s with columns := s.columns ++ columns }

def addCondition (s : Statement) (fragment : String) : Statement :=
  { s with conditions := s.conditions ++ [fragment] }

def addOrdering (s : Statement) (fragment : String) : Statement :=
  { s with orderings := s.orderings ++ [fragment] }

/-! ## Searches -/

/-- The search of an alias, which is begun when it is first asked for; its alias is bound then. A
search that is begun stays, whatever becomes of the operation that asked for it. -/
def beginSearch (s : Statement) (aliasName : String) :
    Except StatementError (Statement × Search) :=
  if s.isFinalized then .error (.reopened aliasName)
  else match s.search? aliasName with
    | some search => .ok (s, search)
    | none =>
      match s.ref? aliasName with
      | none => .error (.unknownAlias aliasName s.aliases)
      | some ref =>
        match s.bindings.bind aliasName ref.relation with
        | .error e => .error (.binding e)
        | .ok (bindings, binding) =>
          let search := Search.ofBinding binding
          .ok ({ s with bindings, searches := s.searches ++ [search] }, search)

/-- The statement with a search in place of the one of the same alias. -/
def putSearch (s : Statement) (search : Search) : Statement :=
  { s with searches := s.searches.map fun t =>
      if t.binding.aliasName = search.binding.aliasName then search else t }

/-- Changes the search of an alias. -/
def updateSearch (s : Statement) (aliasName : String)
    (update : Search → Except SearchError Search) : Statement × Except StatementError Unit :=
  match s.beginSearch aliasName with
  | .error e => (s, .error e)
  | .ok (s, search) =>
    match update search with
    | .error e => (s, .error (.search e))
    | .ok search => (s.putSearch search, .ok ())

/-- Adds a predicate to the search of an alias. -/
def add (s : Statement) (aliasName : String) (node how : Value) :
    Statement × Except StatementError Unit :=
  s.updateSearch aliasName fun search => search.add node how

/-- Sets an option of the search of an alias. -/
def setOption (s : Statement) (aliasName : String) (name value : Value) :
    Statement × Except StatementError Unit :=
  s.updateSearch aliasName fun search => search.setOption name value

/-- Finalizes one search after the other, up to one that cannot be finalized; those before it are
closed by then. -/
def finalizeSearches (strategy : FoldStrategy) :
    List Search → List Search × Except SearchError (List SearchTree)
  | [] => ([], .ok [])
  | search :: rest =>
    match search.finalize (.text strategy.name) with
    | .error e => (search :: rest, .error e)
    | .ok (search, tree) =>
      let (searches, trees) := finalizeSearches strategy rest
      (search :: searches, trees.map (tree.toList ++ ·))

/-- Validates all searches, then finalizes them and closes the statement. A closed statement
keeps its trees. -/
def finalize (s : Statement) : Statement × Except StatementError (List SearchTree) :=
  match s.trees with
  | some trees => (s, .ok trees)
  | none =>
    match s.searches.forM Search.validate with
    | .error e => (s, .error (.search e))
    | .ok () =>
      match finalizeSearches s.strategy s.searches with
      | (searches, .error e) => ({ s with searches }, .error (.search e))
      | (searches, .ok trees) => ({ s with searches, trees := some trees }, .ok trees)

/-! ## Building -/

/-- The calls of all searches; the placeholders are numbered through all of them. -/
def emitAll (settings : Settings) (first : Int) :
    List SearchTree → Except EmissionError (List Expression)
  | [] => .ok []
  | tree :: rest => do
    let e ← tree.emit settings first
    return e :: (← emitAll settings (first + e.parameters.length) rest)

/-- Finalizes the statement and emits its searches, in the order in which they were begun. -/
def expressions (s : Statement) (settings : Settings) :
    Statement × Except StatementError (List Expression) :=
  match s.finalize with
  | (s, .error e) => (s, .error e)
  | (s, .ok trees) => (s, (emitAll settings 1 trees).mapError .emission)

def plainItem (ref : RelationRef) : String :=
  if ref.aliasName = ref.relation then ref.relation else ref.relation ++ " AS " ++ ref.aliasName

/-- A relation as it stands in the list of tables: its search call, or its plain name. -/
def itemText (expressions : List Expression) (ref : RelationRef) : String :=
  match expressions.find? (·.aliasName = ref.aliasName) with
  | some e => e.fromItem
  | none => plainItem ref

/-- The clause that brings in a relation. -/
def refText (expressions : List Expression) (ref : RelationRef) : String :=
  let item := itemText expressions ref
  match ref.join with
  | none => "FROM " ++ item
  | some join =>
    if join.kind = "CROSS" then "CROSS JOIN " ++ item
    else join.kind ++ " JOIN " ++ item ++ " ON " ++ join.condition.getD ""

/-- The whole SELECT, with the given calls in place of the searched relations. -/
def render (s : Statement) (expressions : List Expression) : String :=
  let columns := if s.columns.isEmpty then "*" else String.intercalate ", " s.columns
  let conditions := match s.conditions with
    | [] => []
    | [c] => ["WHERE " ++ c]
    | cs => ["WHERE " ++ String.intercalate " AND " (cs.map fun c => "(" ++ c ++ ")")]
  let orderings :=
    if s.orderings.isEmpty then [] else ["ORDER BY " ++ String.intercalate ", " s.orderings]
  String.intercalate " "
    (("SELECT " ++ columns) :: s.refs.map (refText expressions) ++ conditions ++ orderings)

/-- The SELECT and its parameters in the order of their placeholders. -/
def build (s : Statement) (settings : Settings) :
    Statement × Except StatementError (String × List Value) :=
  if s.refs.isEmpty then (s, .error .noFrom)
  else match s.expressions settings with
    | (s, .error e) => (s, .error e)
    | (s, .ok expressions) =>
      (s, .ok (s.render expressions, expressions.flatMap (·.parameters)))

end Statement

def StatementError.report : StatementError → Report
  | .secondFrom relation aliases =>
    let relation := Text.quoted relation
    let known := quotedList aliases
    .make .invalidArguments "query already has a FROM relation"
      s!"from_({relation}) called on a query with relations {known}"
  | .joinFirst relation =>
    let relation := Text.quoted relation
    .make .invalidArguments "join requires a FROM relation"
      s!"join({relation}) called before from_()"
  | .joinKind kind =>
    let kind := Text.quoted kind
    let kinds := quotedList Statement.joinKinds
    .make .invalidArguments "invalid join kind" s!"join kind {kind} is not one of {kinds}"
  | .noCondition kind relation =>
    let relation := Text.quoted relation
    .make .invalidArguments "join requires an ON condition"
      s!"{kind} JOIN {relation} has no ON condition"
  | .name e => e.report
  | .aliasTaken aliasName relation =>
    .make .invalidBinding "alias is already bound to another relation"
      s!"alias '{aliasName}' is already used for '{relation}'"
  | .reopened aliasName =>
    .make .reopened "search on this relation is already finalized"
      s!"query was already finalized; cannot search alias '{aliasName}'"
  | .unknownAlias aliasName known =>
    let known := quotedList known
    .make .unknownRelation "relation is not bound to a search index"
      s!"alias '{aliasName}' is not a relation of this query; known: {known}"
  | .binding e => e.report
  | .search e => e.report
  | .noFrom =>
    .make .invalidArguments "query has no FROM relation" "build() called before from_()"
  | .emission e => e.report
where
  quotedList (names : List String) : String := shownRow "[" "]" false (names.map Text.quoted)

end SearchSql
