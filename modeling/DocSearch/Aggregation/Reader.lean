import DocSearch.Aggregation.Basic
import DocSearch.Field

/-!
# Reading aggregations

Each sibling is an object with one member that names its kind and holds its
parameters; a histogram may have a second one, `aggs`, with its children.

## Main definitions

* `AggregationError` — why aggregations are refused.
* `Aggregations.ofJson` — the siblings of an object.
-/

namespace DocSearch

/-- Why aggregations are refused. -/
inductive AggregationError where
  /-- Both spellings of the top-level member are there. -/
  | bothSpellings
  /-- The siblings are no object. -/
  | siblingsNotAnObject (owner : String)
  /-- An aggregation is no object. -/
  | notAnObject (name : String)
  /-- There are two sets of children. -/
  | twoChildren (name : String)
  /-- There are two kinds. -/
  | twoKinds (name first second : String)
  /-- There is no kind. -/
  | noKind (name : String)
  /-- There is no such kind. -/
  | unknownKind (name kind : String)
  /-- A metric has children. -/
  | metricWithChildren (name kind : String)
  /-- The parameters are no object. -/
  | bodyNotAnObject (name kind : String)
  /-- A parameter is not known. -/
  | unknownParameter (name parameter : String)
  /-- The field is no string. -/
  | fieldNotAString (name : String)
  /-- A field cannot have this name. -/
  | fieldName (cause : FieldNameError)
  /-- A metric names no field. -/
  | metricWithoutField (name kind : String)
  /-- A histogram has more than one interval. -/
  | severalIntervals (name : String)
  /-- The interval is no string. -/
  | intervalNotAString (name parameter : String)
  /-- There is no such interval. -/
  | unknownInterval (name interval : String)
  /-- The format is no string. -/
  | formatNotAString (name : String)
  /-- The format cannot be read. -/
  | format (cause : DateFormatError)
  /-- The time zone is not UTC. -/
  | timeZone (name : String)
  /-- A histogram names no field. -/
  | histogramWithoutField (name : String)
  /-- A histogram has no interval. -/
  | histogramWithoutInterval (name : String)
  deriving DecidableEq, Repr

namespace AggregationError

/-- What is wrong with the shape, if that is the cause. -/
private def malformation : AggregationError → String
  | bothSpellings => "both [aggs] and [aggregations] are present"
  | siblingsNotAnObject owner => "sub-aggregations of [" ++ owner ++ "] must be an object"
  | notAnObject name => "aggregation [" ++ name ++ "] must be an object"
  | twoChildren name => "found two sub-aggregation definitions in [" ++ name ++ "]"
  | twoKinds name first second =>
    "found two aggregation type definitions in [" ++ name ++ "]: [" ++ first ++ "] and ["
      ++ second ++ "]"
  | noKind name => "missing aggregation type in [" ++ name ++ "]"
  | unknownKind _ _ => ""
  | metricWithChildren name kind =>
    "aggregation [" ++ name ++ "] of type [" ++ kind ++ "] cannot accept sub-aggregations"
  | bodyNotAnObject name kind =>
    "[" ++ kind ++ "] body of aggregation [" ++ name ++ "] must be an object"
  | unknownParameter name parameter =>
    "unknown parameter [" ++ parameter ++ "] in aggregation [" ++ name ++ "]"
  | fieldNotAString name => "[field] of aggregation [" ++ name ++ "] must be a string"
  | fieldName cause => cause.message
  | metricWithoutField name kind =>
    "required [field] missing in [" ++ kind ++ "] aggregation [" ++ name ++ "]"
  | severalIntervals name => "date_histogram [" ++ name ++ "] declares more than one interval"
  | intervalNotAString name parameter =>
    "[" ++ parameter ++ "] of date_histogram [" ++ name ++ "] must be a string"
  | unknownInterval name interval =>
    "unsupported interval [" ++ interval ++ "] in date_histogram [" ++ name ++ "]"
  | formatNotAString name => "[format] of date_histogram [" ++ name ++ "] must be a string"
  | format cause => cause.message
  | timeZone name => "date_histogram [" ++ name ++ "] only supports the UTC time_zone"
  | histogramWithoutField name => "required [field] missing in date_histogram [" ++ name ++ "]"
  | histogramWithoutInterval name =>
    "required [interval] missing in date_histogram [" ++ name ++ "]"

/-- The wording of a cause. -/
def message : AggregationError → String
  | unknownKind name kind => "unknown aggregation type [" ++ kind ++ "] in [" ++ name ++ "]"
  | e => "malformed aggregation: " ++ e.malformation

end AggregationError

namespace Aggregation

/-- What reading aggregations gives. -/
abbrev Reading (α : Type) := Except AggregationError α

/-- The members of the parameters of a kind. -/
def parameters (name kind : String) : Json → Reading (List (String × Json))
  | .obj ms => .ok ms
  | _ => .error (.bodyNotAnObject name kind)

/-- The field of an aggregation. -/
def field (name : String) (v : Json) : Reading String :=
  match v.string? with
  | none => .error (.fieldNotAString name)
  | some f =>
    match Field.checkName f with
    | .ok _ => .ok f
    | .error e => .error (.fieldName e)

/-- Read a parameter of a metric. -/
def metricParameter (name : String) (_ : Option String) : String × Json → Reading (Option String)
  | ("field", v) => (field name v).map some
  | (key, _) => .error (.unknownParameter name key)

/-- A metric. -/
def readMetric (name : String) (m : Metric) (body : Json) : Reading Aggregation := do
  match ← (← parameters name m.key body).foldlM (metricParameter name) none with
  | some f => return .metric m f
  | none => .error (.metricWithoutField name m.key)

/-- The parameters of a histogram, as far as they are read. -/
structure HistogramParameters where
  /-- The field. -/
  field : Option String := none
  /-- The interval. -/
  interval : Option Interval := none
  /-- The format of the keys. -/
  format : Option DateFormat := none

/-- The interval of a parameter. -/
def interval (name parameter : String) (v : Json) : Reading Interval :=
  match v.string? with
  | none => .error (.intervalNotAString name parameter)
  | some raw =>
    match Interval.ofName? raw with
    | some i => .ok i
    | none => .error (.unknownInterval name raw)

/-- The format of a parameter. -/
def format (name : String) (v : Json) : Reading DateFormat :=
  match v.string? with
  | none => .error (.formatNotAString name)
  | some raw =>
    match DateFormat.read raw with
    | .ok f => .ok f
    | .error e => .error (.format e)

/-- The names of the only time zone. -/
def utcNames : List String := ["UTC", "Z", "+00:00", "Etc/UTC"]

/-- Read a parameter of a histogram. -/
def histogramParameter (name : String) (p : HistogramParameters) :
    String × Json → Reading HistogramParameters
  | (key, v) => do
    if key = "field" then return { p with field := some (← field name v) }
    else if key = "interval" ∨ key = "calendar_interval" ∨ key = "fixed_interval" then
      if p.interval.isSome then .error (.severalIntervals name)
      else return { p with interval := some (← interval name key v) }
    else if key = "format" then return { p with format := some (← format name v) }
    else if key = "time_zone" then
      if (v.string?.map utcNames.contains).getD false then return p else .error (.timeZone name)
    else .error (.unknownParameter name key)

/-- A histogram with its children. -/
def readHistogram (name : String) (body : Json) (children : Aggregations) :
    Reading Aggregation := do
  let p ← (← parameters name "date_histogram" body).foldlM (histogramParameter name) {}
  match p.field, p.interval with
  | none, _ => .error (.histogramWithoutField name)
  | some _, none => .error (.histogramWithoutInterval name)
  | some f, some i => return .dateHistogram f i p.format children

/-- The kind of an aggregation with its parameters, and its children as they are
written. -/
structure Entry where
  /-- The kind and the parameters. -/
  kind : Option (String × Json) := none
  /-- The children. -/
  children : Option Json := none

/-- Read a member of an aggregation. -/
def entryMember (name : String) (e : Entry) : String × Json → Reading Entry
  | (key, v) =>
    if key = "aggs" ∨ key = "aggregations" then
      if e.children.isSome then .error (.twoChildren name) else .ok { e with children := some v }
    else if key = "meta" then .ok e
    else
      match e.kind with
      | some (first, _) => .error (.twoKinds name first key)
      | none => .ok { e with kind := some (key, v) }

/-- The kind of an aggregation with its parameters; whatever is wrong with its
members comes first. -/
def entryOf (name : String) : Json → Reading Entry
  | .obj ms => ms.foldlM (entryMember name) {}
  | _ => .error (.notAnObject name)

/-- An aggregation, given its children where there are any. -/
def ofEntry (name : String) (e : Entry) (children : Option (Reading Aggregations)) :
    Reading Aggregation := do
  match e.kind with
  | none => .error (.noKind name)
  | some (kind, body) =>
    if kind = "date_histogram" then readHistogram name body (← children.getD (.ok []))
    else
      match Metric.ofKey? kind with
      | none => .error (.unknownKind name kind)
      | some m =>
        if children.isSome then .error (.metricWithChildren name kind)
        else readMetric name m body

end Aggregation

open Aggregation

mutual

/-- The siblings below an aggregation called `owner`. -/
def Aggregations.ofValue (owner : String) : Json → Except AggregationError Aggregations
  | .obj ms => Aggregations.ofMembers ms
  | _ => .error (.siblingsNotAnObject owner)

/-- The siblings that the members of an object spell. -/
def Aggregations.ofMembers : List (String × Json) → Except AggregationError Aggregations
  | [] => .ok []
  | (name, body) :: rest => do
    let a ← Aggregation.ofBody name body
    return (name, a) :: (← Aggregations.ofMembers rest)

/-- The aggregation with a given name. -/
def Aggregation.ofBody (name : String) (body : Json) : Except AggregationError Aggregation := do
  let e ← entryOf name body
  match body with
  | .obj ms => ofEntry name e (Aggregations.ofChildren name ms)
  | _ => .error (.notAnObject name)

/-- The children among the members of an aggregation, if there are any. -/
def Aggregations.ofChildren (name : String) :
    List (String × Json) → Option (Except AggregationError Aggregations)
  | [] => none
  | (key, v) :: rest =>
    if key = "aggs" ∨ key = "aggregations" then some (Aggregations.ofValue name v)
    else Aggregations.ofChildren name rest

end

/-- The aggregations of a request. -/
def Aggregations.ofJson (v : Json) : Except AggregationError Aggregations :=
  Aggregations.ofValue "aggs" v

end DocSearch
