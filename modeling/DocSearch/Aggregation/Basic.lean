import DocSearch.Json.Printer
import DocSearch.Time.Format
import DocSearch.Time.Interval

/-!
# Aggregations

The `aggs` of a request is a tree: metrics at the leaves, and date histograms
whose buckets are aggregated again.  Siblings have names and keep the order in
which they were written.

## Main definitions

* `Metric` — the functions of one value.
* `Aggregation` — a metric, or a histogram with its children.
* `Aggregations` — named siblings, and `Aggregations.toJson`.
-/

namespace DocSearch

/-- A function of the values of a field. -/
inductive Metric where
  /-- Their sum. -/
  | sum
  /-- The least. -/
  | min
  /-- The greatest. -/
  | max
  /-- Their mean. -/
  | avg
  /-- How many there are. -/
  | valueCount
  deriving DecidableEq, Repr

namespace Metric

/-- The name of a metric in a request. -/
def key : Metric → String
  | sum => "sum"
  | min => "min"
  | max => "max"
  | avg => "avg"
  | valueCount => "value_count"

/-- The metric of a name. -/
def ofKey? (key : String) : Option Metric :=
  if key = "sum" then some sum
  else if key = "min" then some min
  else if key = "max" then some max
  else if key = "avg" then some avg
  else if key = "value_count" then some valueCount
  else none

/-- The aggregate function of the databases. -/
def sqlFunction : Metric → String
  | sum => "SUM"
  | min => "MIN"
  | max => "MAX"
  | avg => "AVG"
  | valueCount => "COUNT"

@[simp] theorem ofKey?_key (m : Metric) : ofKey? m.key = some m := by
  cases m <;> decide +kernel

end Metric

/-- An aggregation. -/
inductive Aggregation where
  /-- A function of the values of a field. -/
  | metric (metric : Metric) (field : String)
  /-- One bucket for each period of the calendar, and more aggregations in each. -/
  | dateHistogram (field : String) (interval : Interval) (format : Option DateFormat)
      (children : List (String × Aggregation))
  deriving BEq, Repr

/-- Named siblings. -/
abbrev Aggregations := List (String × Aggregation)

/-- The aggregations below an aggregation. -/
def Aggregation.children : Aggregation → Aggregations
  | metric _ _ => []
  | dateHistogram _ _ _ children => children

/-- The parameters of a histogram as they are written in a request. -/
def histogramParameters (field : String) (interval : Interval) (format : Option DateFormat) :
    List (String × Json) :=
  [("field", .str field), ("interval", .str interval.unit)]
    ++ (format.map fun f => ("format", Json.str f.pattern)).toList

mutual

/-- An aggregation as it is written in a request. -/
def Aggregation.toJson : Aggregation → Json
  | .metric metric field => .obj [(metric.key, .obj [("field", .str field)])]
  | .dateHistogram field interval format [] =>
    .obj [("date_histogram", .obj (histogramParameters field interval format))]
  | .dateHistogram field interval format (c :: cs) =>
    .obj [("date_histogram", .obj (histogramParameters field interval format)),
      ("aggs", .obj (Aggregations.members (c :: cs)))]

/-- Siblings as the members of an object. -/
def Aggregations.members : List (String × Aggregation) → List (String × Json)
  | [] => []
  | (name, a) :: rest => (name, a.toJson) :: Aggregations.members rest

end

/-- Siblings as they are written in a request. -/
def Aggregations.toJson (siblings : Aggregations) : Json := .obj (Aggregations.members siblings)

end DocSearch
