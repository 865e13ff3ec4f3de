import DocSearch.Text
import DocSearch.Decimal.Layout
import DocSearch.Decimal.Numeral
import DocSearch.Json.Printer
import DocSearch.Json.Reader
import DocSearch.Digest
import DocSearch.Time.Interval
import DocSearch.Time.Format
import DocSearch.Sql.Dialect
import DocSearch.Query.Reader
import DocSearch.Query.Compile
import DocSearch.Request
import DocSearch.Mapping
import DocSearch.Engine.Search
import DocSearch.Engine.Replay
import DocSearch.Store.Functions
import DocSearch.Store.Answer
import DocSearch.Server.Service
import DocSearch.CommandLine
import DocSearch.Main
import DocSearch.Proofs.Sql.Token
import DocSearch.Proofs.Sql.Connectives
import DocSearch.Proofs.Sql.Expression
import DocSearch.Proofs.Sql.Reading
import DocSearch.Proofs.Sql.Rendering
import DocSearch.Proofs.Steps
import DocSearch.Proofs.Query.WellFormed
import DocSearch.Proofs.Aggregation.RoundTrip
import DocSearch.Proofs.Json.Distinct
import DocSearch.Proofs.Json.Reordered
import DocSearch.Proofs.Aggregation.Distinct
import DocSearch.Proofs.Query.Meaning
import DocSearch.Proofs.Store.Evaluation
import DocSearch.Proofs.Query.Exclusion
import DocSearch.Proofs.Query.Shape
import DocSearch.Proofs.Engine.Run
import DocSearch.Proofs.Engine.Walk
import DocSearch.Proofs.Engine.Script
import DocSearch.Proofs.Engine.Targets
import DocSearch.Proofs.Engine.Results
import DocSearch.Proofs.Engine.Cleanup
import DocSearch.Proofs.Sql.Placeholder
import DocSearch.Proofs.Sql.Binding
import DocSearch.Proofs.Engine.Alignment
import DocSearch.Proofs.Engine.Failures
import DocSearch.Proofs.Engine.Cancellation
import DocSearch.Proofs.Store.Selection
import DocSearch.Proofs.Store.Lookup
import DocSearch.Proofs.Store.Soundness
import DocSearch.Proofs.Store.Scan
import DocSearch.Proofs.Engine.Reference
import DocSearch.Proofs.Engine.Serving
import DocSearch.Proofs.Engine.Alone
import DocSearch.Proofs.Digest
import DocSearch.Proofs.Json.Quoted
import DocSearch.Proofs.Engine.Naming
import DocSearch.Proofs.Store.Liveness
import DocSearch.Proofs.Store.Grouping
import DocSearch.Proofs.Engine.Histogram
import DocSearch.Proofs.Engine.Renaming
import DocSearch.Proofs.Engine.Siblings
import DocSearch.Proofs.Engine.Searches
import DocSearch.Proofs.Engine.Holding
import DocSearch.Proofs.Engine.Sharing
import DocSearch.Proofs.Engine.Following
import DocSearch.Proofs.Engine.Interleaving
import DocSearch.Proofs.Store.Indices
import DocSearch.Proofs.Server.MappingRequests
import DocSearch.Proofs.Store.History
import DocSearch.Proofs.Store.Page
import DocSearch.Proofs.Store.Parts
import DocSearch.Proofs.Store.WholePage
import DocSearch.Proofs.Engine.Provenance
import DocSearch.Proofs.Engine.Hits
import DocSearch.Proofs.Engine.Documents
import DocSearch.Proofs.Engine.Asked
import DocSearch.Proofs.Engine.Explanation
import DocSearch.Proofs.Server.Narrowing
import DocSearch.Proofs.Time.Calendar
import DocSearch.Proofs.Time.Period
import DocSearch.Proofs.Decimal.Exact
import DocSearch.Proofs.Store.Instants
import DocSearch.Proofs.Sql.FieldPath
import DocSearch.Proofs.Query.Hollow
import DocSearch.Proofs.Engine.TableExpression
import DocSearch.Proofs.Time.Directives
import DocSearch.Proofs.Time.Format
import DocSearch.Proofs.Time.QuotedText
import DocSearch.Proofs.Sql.Like
import DocSearch.Proofs.Query.TextSearch
import DocSearch.Proofs.Store.TextSearch
import DocSearch.Proofs.Store.MemberPath
import DocSearch.Proofs.Store.Equality
import DocSearch.Proofs.Decimal.Spelling
import DocSearch.Proofs.Sql.Inline
import DocSearch.Proofs.Json.Symmetry
import DocSearch.Proofs.Query.Writing
import DocSearch.Proofs.Query.Parameters
import DocSearch.Proofs.Query.Clauses
import DocSearch.Proofs.Query.Values
import DocSearch.Proofs.Query.Faithful
import DocSearch.Proofs.Query.Shorthand
import DocSearch.Proofs.Query.Commuting
import DocSearch.Proofs.Query.MemberOrder
import DocSearch.Proofs.Engine.Lifetime
import DocSearch.Proofs.Engine.Reuse
import DocSearch.Proofs.Sql.Template
import DocSearch.Proofs.Query.Thresholds
import DocSearch.Proofs.Mapping.Scopes
import DocSearch.Proofs.Mapping.Properties
import DocSearch.Proofs.Sort
import DocSearch.Proofs.Mapping.Snapshot
import DocSearch.Proofs.Json.Written
import DocSearch.Proofs.Engine.PageNumbers
import DocSearch.Proofs.Store.PageOnce
import DocSearch.Proofs.Engine.Counting
import DocSearch.Proofs.Engine.Repeats
import DocSearch.Proofs.Time.Timestamp
import DocSearch.Proofs.Sql.FieldExpression
import DocSearch.Proofs.Engine.TableReuse
