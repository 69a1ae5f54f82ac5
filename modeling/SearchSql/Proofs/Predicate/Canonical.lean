import Mathlib.Data.List.Forall2
import SearchSql.Proofs.Literal.Encoding
import SearchSql.Proofs.Predicate.Leaves
import SearchSql.Proofs.Range.Text

/-!
# Canonical predicates

A predicate holds more than is ever written of it: by which number a boost factor was given, whether
texts were put into a list or a tuple, by which value the flag of a range was said to be true, and
which zone gives a moment its offset. In a canonical predicate that is settled in one way.
-/

namespace SearchSql

/-- What is written of a range: the truth of its flags, and its moments without zone and fold. -/
def SearchRange.written (r : SearchRange Value) : SearchRange Value := r.plain.bare.map .bool

/-- The factor given by the double that is written for it. -/
def Factor.rounded (factor : Factor) : Factor := ⟨.real factor.value, factor.value, rfl⟩

/-- A list in place of a tuple, and a range as `g` has it. -/
def Value.canonical (g : SearchRange Value → SearchRange Value) : Value → Value
  | .tuple items => .list items
  | .range r => .range (g r)
  | v => v

namespace Predicate

mutual

/-- The predicate with canonical values and with factors that are doubles. -/
def canonical (g : SearchRange Value → SearchRange Value) : Predicate Value → Predicate Value
  | .term field v => .term field (v.canonical g)
  | .range field r => .range field (g r)
  | .boolean kind first rest => .boolean kind (canonical g first) (canonicalAll g rest)
  | .boost query factor => .boost (canonical g query) factor.rounded
  | p => p

def canonicalAll (g : SearchRange Value → SearchRange Value) :
    List (Predicate Value) → List (Predicate Value)
  | [] => []
  | p :: ps => canonical g p :: canonicalAll g ps

end

end Predicate

end SearchSql
