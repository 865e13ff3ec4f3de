import DocSearch.Engine.Backend

/-!
# The aggregation walk

Aggregations are computed depth first over the source in scope.  A histogram
without children is one grouped statement.  With children, the rows of the source
are put into a temporary table with their buckets, then the rows of each bucket
into a table of their own, over which the children are computed:

```text
A = SELECT <key> AS sift_bucket, id, type, doc FROM <source>
for key in SELECT DISTINCT sift_bucket FROM A:
    B = SELECT id, type, doc FROM A WHERE sift_bucket = key
    children(B)
```

## Main definitions

* `SearchContext` — what a search is about.
* `Aggregation.run`, `Aggregations.run` — the result of an aggregation, and the
  results of siblings under their names.
-/

namespace DocSearch

open Sql

/-- What a search is about. -/
structure SearchContext where
  /-- The indices that are searched. -/
  targets : List Target
  /-- The types that are searched; none means all. -/
  types : List String
  /-- The declared types of fields. -/
  mappings : Mappings
  /-- The text of the request. -/
  source : String

/-- The names of the indices that are searched. -/
def SearchContext.indices (c : SearchContext) : List String := c.targets.map (·.index)

variable {σ : Type}

/-- Issue a statement of an aggregation. -/
def query (b : Backend σ) (s : Statement) : Run σ ExecutionError (List Row) :=
  (issue b s).mapError .aggregation

/-- The first column of the first row. -/
def firstValue (rows : List Row) : Value := ((rows.head?).bind List.head?).getD .null

/-- The value of a metric in an answer; a number that is no count is written as a
double. -/
def metricValue : Metric → Value → Json
  | _, .null => .null
  | .valueCount, v => v.toJson
  | _, .integer n => .num (.real (Float.ofInt n.toInt))
  | _, v => v.toJson

/-- The result of a metric. -/
def runMetric (b : Backend σ) (m : Metric) (field : String) : Run σ ExecutionError Json := do
  let scope ← Run.read (·.scope)
  let rows ← query b (.metric m field scope)
  return .obj [("value", metricValue m (firstValue rows))]

/-- The bucket key of a histogram over a field; how the field is read depends on
the type that is declared for it. -/
def bucketKey (c : SearchContext) (field : String) (interval : Interval) :
    Except ExecutionError BucketKey :=
  match c.mappings.fieldType? c.indices c.types field with
  | none => .error (.noSuchFieldMapping field)
  | some type =>
    match type.timestampSource? with
    | none => .error (.unsupportedFieldType field type)
    | some source => .ok ⟨field, source, interval⟩

/-- What every bucket of an answer starts with. -/
def bucketMembers (format : Option DateFormat) (key count : Int64) : List (String × Json) :=
  (format.map fun f => ("key_as_string", Json.str (f.format key.toInt))).toList
    ++ [("key", .ofInt key.toInt), ("doc_count", .ofInt count.toInt)]

/-- The bucket of a row with a key and a count. -/
def groupedBucket? (format : Option DateFormat) (row : Row) : Option Json := do
  let key ← (← row[0]?).toInt64?
  let count ← (← row[1]?).toInt64?
  return .obj (bucketMembers format key count)

/-- The buckets of a histogram without children. -/
def groupedBuckets (b : Backend σ) (key : BucketKey) (format : Option DateFormat) :
    Run σ ExecutionError (List Json) := do
  let scope ← Run.read (·.scope)
  let rows ← query b (.histogram key scope)
  return rows.filterMap (groupedBucket? format)

/-- The name of the table that holds the rows of the source in scope with their
buckets. -/
def bucketedTableName (d : Dialect) (c : SearchContext) (scope : Source) (key : BucketKey) :
    String :=
  let source := scope.render d
  let params := Json.arr (source.params.map Value.toJson)
  tempTableName [c.source, source.sql, params.print, key.field, key.interval.unit]

/-- The name of the table that holds the rows of one bucket. -/
def bucketTableName (bucketed : String) (key : Int64) : String :=
  tempTableName [bucketed, toString key.toInt]

/-- The bucket with a given key, its children computed by `children`. -/
def runBucket (b : Backend σ) (format : Option DateFormat) (bucketed : String)
    (children : Run σ ExecutionError (List (String × Json))) (key : Int64) :
    Run σ ExecutionError Json := do
  checkCancelled b
  let table := bucketTableName bucketed key
  (materialize b table (.bucket bucketed key)).mapError .aggregation
  let rows ← query b (.count (.table table))
  let count := (firstValue rows).toInt64?.getD 0
  let results ← withScope (.table table) children
  return .obj (Members.putAll (bucketMembers format key count) results)

/-- The buckets of a histogram with children. -/
def materializedBuckets (b : Backend σ) (c : SearchContext) (key : BucketKey)
    (format : Option DateFormat) (children : Run σ ExecutionError (List (String × Json))) :
    Run σ ExecutionError (List Json) := do
  let scope ← Run.read (·.scope)
  let bucketed := bucketedTableName b.dialect c scope key
  (materialize b bucketed (.bucketed key scope)).mapError .aggregation
  let rows ← query b (.buckets bucketed)
  let keys := rows.filterMap fun row => row.head?.bind Value.toInt64?
  keys.mapM (runBucket b format bucketed children)

mutual

/-- The result of an aggregation over the source in scope. -/
def Aggregation.run (b : Backend σ) (c : SearchContext) :
    Aggregation → Run σ ExecutionError Json
  | .metric m field => do
    checkCancelled b
    runMetric b m field
  | .dateHistogram field interval format children => do
    checkCancelled b
    let key ← Run.lift (bucketKey c field interval)
    let buckets ←
      if children.isEmpty then groupedBuckets b key format
      else materializedBuckets b c key format (Aggregations.run b c children)
    return .obj [("buckets", .arr buckets)]

/-- The results of siblings under their names. -/
def Aggregations.run (b : Backend σ) (c : SearchContext) :
    List (String × Aggregation) → Run σ ExecutionError (List (String × Json))
  | [] => return []
  | (name, a) :: rest => do
    let result ← Aggregation.run b c a
    return (name, result) :: (← Aggregations.run b c rest)

end

/-- The results of the aggregations of a request. -/
def Aggregations.execute (b : Backend σ) (c : SearchContext) (siblings : Aggregations) :
    Run σ ExecutionError (List (String × Json)) := do
  checkCancelled b
  Aggregations.run b c siblings

end DocSearch
