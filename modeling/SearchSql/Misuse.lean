import SearchSql.Report

/-!
# Misuse

Arguments that lie outside what an operation asks for, so that it does not even begin: no member
of a set of names, too large, or of a type that does not know the operation.
-/

namespace SearchSql

/-- The closed sets of names that an argument may be taken from. -/
inductive NameSet where
  | foldStrategy
  | rangeType
  | literalKind
  deriving DecidableEq, Repr

def NameSet.title : NameSet → String
  | .foldStrategy => "FoldStrategy"
  | .rangeType => "RangeSubtype"
  | .literalKind => "LiteralKind"

/-- How an argument fails. It is kept in its shown form, or by the full name of its type where
only that matters. -/
inductive Misuse where
  | notMember (shown : String) (set : NameSet)
  | unknownDialect (shown : String)
  | tooLarge
  | noItems (typeName : String)
  | noContents (typeName : String)
  | noLength (typeName : String)
  | noEnds (typeName : String)
  | noText (typeName : String)
  | textInBytes
  | bytesForText
  deriving DecidableEq, Repr

def Misuse.report : Misuse → Report
  | .notMember shown set => .make .badValue s!"{shown} is not a valid {set.title}" ""
  | .unknownDialect shown =>
    .make .badValue s!"unknown dialect: {shown}. Available: paradedb, shorthand" ""
  | .tooLarge => .make .overflow "int too large to convert to float" ""
  | .noItems typeName => .make .badType s!"'{typeName}' object is not iterable" ""
  | .noContents typeName => .make .badType s!"argument of type '{typeName}' is not iterable" ""
  | .noLength typeName => .make .badType s!"object of type '{typeName}' has no len()" ""
  | .noEnds typeName =>
    .make .missingAttribute s!"'{typeName}' object has no attribute 'strip'" ""
  | .noText typeName =>
    .make .badType s!"expected string or bytes-like object, got '{typeName}'" ""
  | .textInBytes => .make .badType "a bytes-like object is required, not 'str'" ""
  | .bytesForText => .make .badType "cannot use a string pattern on a bytes-like object" ""

end SearchSql
