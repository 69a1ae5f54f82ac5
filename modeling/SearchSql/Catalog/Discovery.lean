import SearchSql.Catalog.Definition
import SearchSql.Schema.Registry

/-!
# Discovery

The search indexes of given tables are read from the catalog of a database: one query is asked
through a cursor, its rows are read, and the cursor is closed whatever comes of it.
-/

namespace SearchSql.Catalog

/-- A call on the connection to the database. -/
inductive Call where
  | cursor
  | execute (query : String) (parameters : List String)
  | fetchAll
  | close
  deriving DecidableEq, Repr

/-- A row of the answer: the table, the name of an index, and its definition. -/
structure Row where
  table : Value
  index : Value
  definition : Value

inductive CatalogError where
  | severalIndexes (table first : String) (second : Value)
  | missingIndex (table schemaName : String)
  | unreadable (index definition : String)
  | unreadableColumn (index column : String)
  | schema (e : SchemaError)

/-- The query for the search indexes of so many tables. -/
def query (tables : Nat) : String :=
  "\n        SELECT tablename, indexname, indexdef" ++
  "\n        FROM pg_indexes" ++
  "\n        WHERE schemaname = %s" ++
  "\n          AND tablename IN (" ++
    String.intercalate ", " (List.replicate tables "%s") ++ ")" ++
  "\n          AND indexdef ILIKE '%%USING bm25%%'" ++
  "\n        ORDER BY tablename, indexname" ++
  "\n    "

/-- The index that a definition describes. -/
def readIndex (table index definition : String) : Except CatalogError SearchIndex :=
  match readParts? definition.toList with
  | none => .error (.unreadable index definition)
  | some parts =>
    match columnNames [] (splitTopLevel parts.columns) with
    | .error column => .error (.unreadableColumn index column)
    | .ok names =>
      let (fields, key) := fieldsAndKey names parts.options
      (SearchIndex.build table (.list (fields.map .text)) (some index) key).mapError .schema

/-- Reads the rows; no table may have two. -/
def readRows : List SearchIndex → List Row → Except CatalogError (List SearchIndex)
  | found, [] => .ok found
  | found, row :: rest => do
    let table := row.table.display
    match found.find? (·.relation = table) with
    | some other => throw (.severalIndexes table other.name row.index)
    | none =>
      let index ← readIndex table row.index.display row.definition.display
      readRows (found ++ [index]) rest

/-- Registers the indexes of the tables in their order. -/
def registerTables (schema : String) (found : List SearchIndex) :
    Registry → List String → Except CatalogError Registry
  | registry, [] => .ok registry
  | registry, table :: rest =>
    match found.find? (·.relation = table) with
    | none => .error (.missingIndex table schema)
    | some index => do
      let (registry, _) ← (registry.register table (.list (index.fieldNames.map .text))
        (some index.name) index.keyField).mapError .schema
      registerTables schema found registry rest

/-- Work with a connection. Its calls are noted, also if it fails. -/
abbrev Exchange := ExceptT CatalogError (StateM (List Call))

namespace Exchange

def call (c : Call) : Exchange Unit := modify (· ++ [c])

/-- What has come of work without a call. -/
def ofExcept {α : Type} (result : Except CatalogError α) : Exchange α := ExceptT.mk (pure result)

/-- Work with a cursor, which is closed whatever comes of it. -/
def withCursor {α : Type} (work : Exchange α) : Exchange α := do
  call .cursor
  try work
  finally call .close

/-- Asks for the indexes of the tables and registers them, if the database answers these rows. -/
def ask (tables : List String) (schema : String) (rows : List Row) : Exchange Registry := do
  call (.execute (query tables.length) (schema :: tables))
  call .fetchAll
  let found ← ofExcept (readRows [] rows)
  ofExcept (registerTables schema found Registry.empty tables)

end Exchange

/-- The registry of the search indexes of some tables, given the rows that the database answers,
and the calls that are made for it. -/
def discover (tables : List String) (schema : String) (rows : List Row) :
    Except CatalogError Registry × List Call :=
  let exchange : Exchange Registry := do
    if tables.isEmpty then return Registry.empty
    Exchange.withCursor (Exchange.ask tables schema rows)
  exchange.run.run []

def CatalogError.report : CatalogError → Report
  | .severalIndexes table first second =>
    let table := Text.quoted table
    let first := Text.quoted first
    .make .discovery s!"multiple search indexes on table: {table}"
      s!"table {table} has indexes {first} and {second.shown}"
  | .missingIndex table schemaName =>
    let table := Text.quoted table
    let schemaName := Text.quoted schemaName
    .make .discovery s!"search index not found: {table}" s!"no bm25 index on {schemaName}.{table}"
  | .unreadable index definition =>
    let index := Text.quoted index
    let definition := Text.quoted definition
    .make .discovery s!"unreadable search index definition: {index}"
      s!"cannot parse indexdef for {index}: {definition}"
  | .unreadableColumn index column =>
    let index := Text.quoted index
    let column := Text.quoted column
    .make .discovery s!"unreadable search index column: {index}"
      s!"cannot read column {column} of {index}"
  | .schema e => e.report

end SearchSql.Catalog
