import SearchSql.Catalog.Discovery
import SearchSql.Literal.Decoding
import SearchSql.Number.RoundTrip
import SearchSql.Predicate.Build
import SearchSql.Predicate.Traversal
import SearchSql.Search.Run
import SearchSql.Statement.Run
import SearchSql.Value.Equality
import SearchSql.Proofs.Calendar.Reading
import SearchSql.Proofs.Calendar.Text
import SearchSql.Proofs.Call.Arguments
import SearchSql.Proofs.Call.Confinement
import SearchSql.Proofs.Call.Determination
import SearchSql.Proofs.Call.Emission
import SearchSql.Proofs.Call.Inline
import SearchSql.Proofs.Call.Quoting
import SearchSql.Proofs.Call.Reading
import SearchSql.Proofs.Number.Text
import SearchSql.Proofs.Predicate.Meaning
import SearchSql.Proofs.Range.Reading
import SearchSql.Proofs.Range.Text
import SearchSql.Proofs.Statement.Closing
import SearchSql.Proofs.Statement.Failing
import SearchSql.Proofs.Statement.Finalizing
import SearchSql.Proofs.Statement.Independence
import SearchSql.Proofs.Statement.Numbering
import SearchSql.Proofs.Statement.Order
import SearchSql.Proofs.Statement.Safety
import SearchSql.Proofs.Range.Typing
import SearchSql.Proofs.Literal.Decoding
import SearchSql.Call.Emitter
import SearchSql.Proofs.Predicate.NormalForm
import SearchSql.Statement.Session
import SearchSql.Proofs.Call.Emitter
import SearchSql.Proofs.Statement.Session
import SearchSql.Proofs.Statement.Relations
import SearchSql.Proofs.Schema.Registration
import SearchSql.Proofs.Statement.Rendering
import SearchSql.Proofs.Search.Run
import SearchSql.Proofs.Schema.Identifier
import SearchSql.Proofs.Statement.Names
import SearchSql.Proofs.Range.Grammar
import SearchSql.Proofs.Calendar.Order
import SearchSql.Proofs.Number.Worth
import SearchSql.Proofs.Predicate.Branches
import SearchSql.Proofs.Predicate.Precedence
import SearchSql.Proofs.Range.Building
import SearchSql.Proofs.Range.Stability
import SearchSql.Proofs.Predicate.Depth
import SearchSql.Proofs.Call.Limits
import SearchSql.Predicate.Object
import SearchSql.Call.Scribe
import SearchSql.Proofs.Predicate.Object
import SearchSql.Proofs.Call.Outline
import SearchSql.Proofs.Predicate.TreeOrder
import SearchSql.Proofs.Schema.Validation
import SearchSql.Proofs.Catalog.Split
import SearchSql.Proofs.Catalog.Definition
import SearchSql.Proofs.Catalog.Reading
import SearchSql.Proofs.Catalog.Discovery
import SearchSql.Predicate.Pending
import SearchSql.Schema.Run
import SearchSql.Proofs.Predicate.Places
import SearchSql.Proofs.Predicate.Pending
import SearchSql.Proofs.Catalog.Joining
import SearchSql.Proofs.Schema.Run
import SearchSql.Proofs.Call.Cast
import SearchSql.Proofs.Call.Numbers
import SearchSql.Proofs.Statement.Capacity
