import DocSearch.Engine.Walk
import DocSearch.Proofs.Store.Dependence

/-!
# What an aggregation is worth

The value of an aggregation is said without a walk: a histogram with children puts the
rows of its place into buckets, and its children are evaluated at the rows of each bucket.
A walk reaches a bucket through temporary tables.  Which tables it asks for, and what each
of them has to hold, is known beforehand as well.

## Main definitions

* `Place` — a bucket within a bucket and so on, within all documents that are searched.
* `Origin` — what a walk starts from.
* `Origin.source`, `Origin.view` — what a statement at a place reads, and a database in
  which it reads the rows of the place.
* `Aggregation.value` — the value of an aggregation at a place.
* `Aggregation.tables` — the temporary tables that a walk asks for.
-/

namespace DocSearch

open Sql

/-! ### Places -/

/-- Where a statement of a walk reads. -/
inductive Place where
  /-- All documents that are searched. -/
  | whole
  /-- A bucket of a histogram at another place. -/
  | bucket (outer : Place) (key : BucketKey) (bucket : Int64)

/-- What a walk starts from. -/
structure Origin where
  /-- The database; its temporary tables do not matter. -/
  database : Database
  /-- What the search is about. -/
  context : SearchContext
  /-- What the documents have to meet. -/
  condition : Option Condition

/-- A temporary table: the parts of its name and the rows that fill it, unless this
fails. -/
structure Table where
  /-- The parts of its name. -/
  parts : List String
  /-- The rows. -/
  rows : Except EvaluationError (List TemporaryRow)

/-- The name of a table. -/
def Table.name (t : Table) : String := tempTableName t.parts

/-- The buckets of rows, in their order. -/
def bucketKeys (rows : List TemporaryRow) : List Int64 := distinctKeys (rows.filterMap (·.bucket))

/-- The rows of one bucket. -/
def rowsInBucket (key : Int64) (rows : List TemporaryRow) : List TemporaryRow :=
  (rows.filter fun r => r.bucket == some key).map fun r => ⟨none, r.document⟩

/-- The parts of the name of a table of buckets. -/
def bucketedParts (c : SearchContext) (scope : Source) (key : BucketKey) : List String :=
  let source := scope.render .sqlite
  let params := Json.arr (source.params.map Value.toJson)
  [c.source, source.sql, params.print, key.field, key.interval.unit]

/-- The parts of the name of the table of one bucket. -/
def bucketParts (bucketed : String) (key : Int64) : List String := [bucketed, toString key.toInt]

namespace Origin

/-- What a statement at a place reads. -/
def source (o : Origin) : Place → Source
  | .whole => .documents o.context.targets o.context.types o.condition
  | .bucket p key k =>
    .table (bucketTableName (bucketedTableName .sqlite o.context (o.source p) key) k)

/-- A database in which a statement at a place reads the rows of the place. -/
def view (o : Origin) : Place → Database
  | .whole => { o.database with temporary := [] }
  | .bucket p key k =>
    let bucketed := bucketedTableName .sqlite o.context (o.source p) key
    let rows := ((o.view p).fill bucketed (.bucketed key (o.source p))).toOption.getD []
    o.database.withOnly (bucketTableName bucketed k) (rowsInBucket k rows)

variable (o : Origin) (p : Place) (key : BucketKey)

/-- The table of the rows of a place with their buckets. -/
def bucketed : Table where
  parts := bucketedParts o.context (o.source p) key
  rows := (o.view p).fill (bucketedTableName .sqlite o.context (o.source p) key)
    (.bucketed key (o.source p))

/-- The table of one bucket. -/
def inBucket (rows : List TemporaryRow) (k : Int64) : Table where
  parts := bucketParts (o.bucketed p key).name k
  rows := .ok (rowsInBucket k rows)

/-- What a statement at a place gives. -/
def ask (s : Statement) : Except ExecutionError (List Row) :=
  ((o.view p).answer s).mapError fun e => .aggregation (.evaluation e)

/-- The buckets of a histogram without children. -/
def groupedBuckets (format : Option DateFormat) : Except ExecutionError (List Json) := do
  let rows ← o.ask p (.histogram key (o.source p))
  return rows.filterMap (groupedBucket? format)

/-- The bucket with a given key and its rows, the values of the children being known. -/
def bucketOf (format : Option DateFormat) (rows : List TemporaryRow) (k : Int64)
    (children : Except ExecutionError (List (String × Json))) : Except ExecutionError Json := do
  let count := Int64.ofNat (rowsInBucket k rows).length
  return .obj (Members.putAll (bucketMembers format k count) (← children))

/-- The buckets of a histogram with children, `children` being their values in each. -/
def filledBuckets (format : Option DateFormat)
    (children : Int64 → Except ExecutionError (List (String × Json))) :
    Except ExecutionError (List Json) := do
  let rows ← (o.bucketed p key).rows.mapError fun e => .aggregation (.evaluation e)
  (bucketKeys rows).mapM fun k => bucketOf format rows k (children k)

end Origin

/-! ### Values -/

mutual

/-- The value of an aggregation at a place. -/
def Aggregation.value (o : Origin) : Aggregation → Place → Except ExecutionError Json
  | .metric m field, p => do
    let rows ← o.ask p (.metric m field (o.source p))
    return .obj [("value", metricValue m (firstValue rows))]
  | .dateHistogram field interval format children, p => do
    let key ← bucketKey o.context field interval
    let buckets ←
      if children.isEmpty then o.groupedBuckets p key format
      else o.filledBuckets p key format fun k => Aggregations.value o children (.bucket p key k)
    return .obj [("buckets", .arr buckets)]

/-- The values of siblings under their names. -/
def Aggregations.value (o : Origin) :
    List (String × Aggregation) → Place → Except ExecutionError (List (String × Json))
  | [], _ => return []
  | (name, a) :: rest, p => do
    let result ← Aggregation.value o a p
    return (name, result) :: (← Aggregations.value o rest p)

end

/-! ### Tables -/

mutual

/-- The temporary tables that the walk of an aggregation asks for. -/
def Aggregation.tables (o : Origin) : Aggregation → Place → List Table
  | .metric _ _, _ => []
  | .dateHistogram field interval _ children, p =>
    match bucketKey o.context field interval with
    | .error _ => []
    | .ok key =>
      if children.isEmpty then []
      else
        o.bucketed p key ::
          match (o.bucketed p key).rows with
          | .error _ => []
          | .ok rows => (bucketKeys rows).flatMap fun k =>
              o.inBucket p key rows k :: Aggregations.tables o children (.bucket p key k)

/-- The temporary tables that the walk of siblings asks for. -/
def Aggregations.tables (o : Origin) : List (String × Aggregation) → Place → List Table
  | [], _ => []
  | (_, a) :: rest, p => Aggregation.tables o a p ++ Aggregations.tables o rest p

end

end DocSearch
