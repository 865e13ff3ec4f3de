import DocSearch.Aggregation.Basic
import DocSearch.Engine.Source
import DocSearch.Sort

/-!
# Statements

Everything that a search asks of a database is one of seven statements.  Five of
them read rows; the other two drop and create temporary tables.

## Main definitions

* `BucketKey` — the expression that puts a document into a bucket.
* `Selection` — the rows that fill a temporary table.
* `Statement` — the statements.
* `Statement.render` — the text of a statement with its bound values.
-/

namespace DocSearch

open Sql

/-- The start of the period that the instant of a field lies in. -/
structure BucketKey where
  /-- The field. -/
  field : String
  /-- How the field holds its instant. -/
  source : TimestampSource
  /-- The length of the periods. -/
  interval : Interval
  deriving DecidableEq, Repr

/-- The expression of a bucket key. -/
def BucketKey.render (d : Dialect) (k : BucketKey) : String :=
  d.bucketKey (d.fieldValue k.field) k.source k.interval

/-- The rows that fill a temporary table. -/
inductive Selection where
  /-- The rows of a source with their bucket. -/
  | bucketed (key : BucketKey) (source : Source)
  /-- The rows of one bucket of such a table. -/
  | bucket (table : String) (key : Int64)
  /-- The rows of a selection that is written out. -/
  | verbatim (sql : Fragment)
  deriving Repr

/-- The text of a selection. -/
def Selection.render (d : Dialect) : Selection → Fragment
  | bucketed key source =>
    .raw ("SELECT " ++ key.render d ++ " AS sift_bucket, id, type, doc FROM ") ++ source.render d
  | bucket table key =>
    ⟨"SELECT id, type, doc FROM " ++ quoteIdent table ++ " WHERE sift_bucket = ?", [.integer key]⟩
  | verbatim sql => sql

/-- A statement of a search. -/
inductive Statement where
  /-- A function of the values of a field. -/
  | metric (metric : Metric) (field : String) (source : Source)
  /-- How many rows each bucket has, in the order of the buckets. -/
  | histogram (key : BucketKey) (source : Source)
  /-- The buckets of a temporary table, in their order. -/
  | buckets (table : String)
  /-- How many rows there are. -/
  | count (source : Source)
  /-- A page of the rows. -/
  | page (source : Source) (sort : List SortClause) (size offset : Int64)
  /-- Drop a temporary table if it is there. -/
  | drop (table : String)
  /-- Create a temporary table. -/
  | create (table : String) (selection : Selection)
  deriving Repr

namespace Statement

/-- Whether a statement changes tables instead of reading rows. -/
def isCommand : Statement → Bool
  | drop _ | create _ _ => true
  | _ => false

/-- The argument of the function of a metric: values are counted as they are, and
everything else is computed over numbers. -/
def metricArgument (d : Dialect) (m : Metric) (field : String) : String :=
  match m with
  | .valueCount => d.fieldValue field
  | _ => d.numeric (d.fieldValue field)

/-- The order and the limits of a page. -/
def pageTail (d : Dialect) (sort : List SortClause) (size offset : Int64) : String :=
  let order := SortClause.orderBy d sort
  (if order.isEmpty then "" else " " ++ order)
    ++ " LIMIT " ++ toString size.toInt ++ " OFFSET " ++ toString offset.toInt

/-- The text of a statement with its bound values. -/
def render (d : Dialect) : Statement → Fragment
  | metric m field source =>
    .raw ("SELECT " ++ m.sqlFunction ++ "(" ++ metricArgument d m field ++ ") FROM ")
      ++ source.render d
  | histogram key source =>
    .raw ("SELECT sift_bucket, COUNT(*) FROM (SELECT " ++ key.render d ++ " AS sift_bucket FROM ")
      ++ source.render d
      ++ .raw (") AS b WHERE sift_bucket IS NOT NULL GROUP BY sift_bucket ORDER BY sift_bucket")
  | buckets table =>
    .raw ("SELECT DISTINCT sift_bucket FROM " ++ quoteIdent table
      ++ " WHERE sift_bucket IS NOT NULL ORDER BY 1")
  | count source => .raw "SELECT COUNT(*) FROM " ++ source.render d
  | page source sort size offset =>
    .raw "SELECT sift_index, id, type, doc FROM " ++ source.render d
      ++ .raw (pageTail d sort size offset)
  | drop table => .raw ("DROP TABLE IF EXISTS " ++ quoteIdent table)
  | create table selection =>
    .raw ("CREATE TEMP TABLE " ++ quoteIdent table ++ " AS ") ++ selection.render d

end Statement

end DocSearch
