/-!
# Reports of failures

What a failure tells: its category, a message that is safe to show to anyone, and a detailed text
for the log.
-/

namespace SearchSql

/-- The kinds of failure. The last four say that an argument was no value at all of what was
asked for; they have no detailed text of their own. -/
inductive Category where
  | compilation
  | unknownRelation
  | unknownField
  | invalidOption
  | unsupportedType
  | invalidRange
  | reopened
  | invalidSchema
  | invalidName
  | invalidArguments
  | invalidBinding
  | unsupportedExpression
  | depthExceeded
  | lengthExceeded
  | discovery
  | badValue
  | badType
  | missingAttribute
  | overflow
  deriving DecidableEq, Repr

/-- The category and the wider ones it belongs to, the widest last. -/
def Category.lineage : Category → List Category
  | .compilation => [.compilation]
  | .invalidRange => [.invalidRange, .unsupportedType, .compilation]
  | .badValue => [.badValue]
  | .badType => [.badType]
  | .missingAttribute => [.missingAttribute]
  | .overflow => [.overflow]
  | c => [c, .compilation]

/-- Whether the failure is one of compilation, in the widest sense. -/
def Category.isCompilation (c : Category) : Bool := c.lineage.contains .compilation

/-- What a failure goes back to: a value outside its domain, or a text outside its grammar. -/
inductive Cause where
  | value
  | grammar
  deriving DecidableEq, Repr

structure Report where
  category : Category
  message : String
  detail : String
  cause : Option Cause
  deriving DecidableEq, Repr

/-- A report; without a detailed text, the message takes its place. -/
def Report.make (category : Category) (message detail : String) : Report :=
  ⟨category, message, if detail.isEmpty then message else detail, none⟩

def Report.withCause (r : Report) (cause : Cause) : Report := { r with cause := some cause }

end SearchSql
