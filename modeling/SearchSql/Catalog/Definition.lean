import SearchSql.Catalog.Split
import SearchSql.Value.Shown

/-!
# Index definitions

The text that the database keeps for a search index, `… USING bm25 (columns) WITH (options)`, is
read for the indexed columns and the key field. Keywords are recognised in letters of either case,
and the four letters beyond ASCII that fold to an ASCII one count as that one.
-/

namespace SearchSql.Catalog

/-- A definition taken apart. -/
structure Parts where
  columns : List Char
  options : Option (List Char)
  deriving DecidableEq, Repr

/-- Letters that are equal to an ASCII letter but for their case. -/
def foldedLetters : List (Char × Char) :=
  [('\u017F', 's'), ('\u212A', 'k'), ('\u0130', 'i'), ('\u0131', 'i')]

/-- The letter without its case. -/
def foldCase (c : Char) : Char := (foldedLetters.lookup c).getD c.toLower

/-- What follows a word, written in letters of either case, in front of a text. -/
def afterWord? : List Char → List Char → Option (List Char)
  | [], s => some s
  | _ :: _, [] => none
  | w :: word, c :: s => if foldCase c = w then afterWord? word s else none

def afterChar? (mark : Char) : List Char → Option (List Char)
  | [] => none
  | c :: s => if c = mark then some s else none

def skipBlanks (s : List Char) : List Char := s.dropWhile Text.isBlank

/-- What follows at least one blank. -/
def afterBlanks? : List Char → Option (List Char)
  | [] => none
  | c :: s => if Text.isBlank c then some (skipBlanks s) else none

/-- What follows `USING bm25 (` in front of a text. -/
def afterOpening? (s : List Char) : Option (List Char) := do
  let s ← afterWord? "using".toList s
  let s ← afterBlanks? s
  let s ← afterWord? "bm25".toList s
  afterChar? '(' (skipBlanks s)

/-- The text before a closing parenthesis at its end, which blanks may follow. -/
def beforeClosing? (s : List Char) : Option (List Char) :=
  match s.reverse.dropWhile Text.isBlank with
  | ')' :: rest => some rest.reverse
  | _ => none

/-- Reads the end of a definition: nothing, or the options. -/
def readTail? (s : List Char) : Option (Option (List Char)) :=
  let options := do
    let s ← afterBlanks? s
    let s ← afterWord? "with".toList s
    let s ← afterChar? '(' (skipBlanks s)
    beforeClosing? s
  match options with
  | some o => some (some o)
  | none => if s.all Text.isBlank then some none else none

/-- Reads the columns up to the first closing parenthesis that an end of a definition follows. -/
def readColumns? : List Char → List Char → Option Parts
  | _, [] => none
  | columns, c :: s =>
    match if c = ')' then readTail? s else none with
    | some options => some ⟨columns, options⟩
    | none => readColumns? (columns ++ [c]) s

/-- Reads a definition, which may begin anywhere in the text. -/
def readParts? : List Char → Option Parts
  | [] => none
  | c :: s =>
    match (afterOpening? (c :: s)).bind (readColumns? []) with
    | some parts => some parts
    | none => readParts? s

def isNameStart (c : Char) : Bool := c.isAlpha || c = '_'

def isNamePart (c : Char) : Bool := c.isAlphanum || c = '_'

/-- The identifier in front of a column, behind parentheses, blanks and a quotation mark. -/
def leadingName? (column : List Char) : Option (List Char) :=
  let s := skipBlanks (column.dropWhile (· = '('))
  let s := (afterChar? Text.quotationMark s).getD s
  match s with
  | [] => none
  | c :: rest => if isNameStart c then some (c :: rest.takeWhile isNamePart) else none

/-- The value of a key field in front of a text: an identifier behind an equals sign and optional
quotes. Its letters are taken in the wider sense. -/
def keyValue? (s : List Char) : Option (List Char) := do
  let s ← afterChar? '=' (skipBlanks s)
  let s := skipBlanks s
  let s := (afterChar? Text.apostrophe s).getD s
  let s := (afterChar? Text.quotationMark s).getD s
  match s with
  | [] => none
  | c :: rest =>
    if isNameStart (foldCase c) then some (c :: rest.takeWhile fun d => isNamePart (foldCase d))
    else none

/-- The first key field that the options set. -/
def keyField? : List Char → Option (List Char)
  | [] => none
  | c :: s =>
    match (afterWord? "key_field".toList (c :: s)).bind keyValue? with
    | some key => some key
    | none => keyField? s

/-- The columns without repeats, in order; or the first that cannot be read. -/
def columnNames : List String → List (List Char) → Except String (List String)
  | names, [] => .ok names
  | names, column :: rest =>
    match leadingName? column with
    | none => .error (String.ofList column)
    | some name =>
      let name := String.ofList name
      columnNames (if names.contains name then names else names ++ [name]) rest

/-- The fields of a definition and its key field: the one that the options set, which is put in
front if it is no column, or else the first column. -/
def fieldsAndKey (names : List String) (options : Option (List Char)) :
    List String × Option String :=
  match options.bind keyField? with
  | some key =>
    let key := String.ofList key
    (if names.contains key then names else key :: names, some key)
  | none => (names, names.head?)

end SearchSql.Catalog
