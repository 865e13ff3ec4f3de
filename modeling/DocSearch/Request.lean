import DocSearch.Aggregation.Reader
import DocSearch.Digest
import DocSearch.Json.Reader
import DocSearch.Query.Reader
import DocSearch.Sort

/-!
# Search requests

The body of a search names a query, aggregations, an order and a page, each of
them optional.  A body of blanks asks for every document.  Requests are the same
when their text is the same.

## Main definitions

* `RequestError` — why a body is refused.
* `SearchError` — why a search cannot be compiled.
* `RequestOptions` — what shapes the reading and is not in the body.
* `Request.read` — the request of a body.
* `Request.fingerprint` — the digest of the text.
-/

namespace DocSearch

/-- Why the body of a request is refused as such. -/
inductive RequestError where
  /-- It is no JSON document. -/
  | invalidJson
  /-- It is no object. -/
  | notAnObject
  /-- A member is not known. -/
  | unknownKey (key : String)
  /-- A number of the page is no integer. -/
  | notAnInteger (key : String)
  deriving DecidableEq, Repr

/-- The wording of a cause. -/
def RequestError.message : RequestError → String
  | invalidJson => "malformed request: invalid JSON"
  | notAnObject => "malformed request: request body must be a JSON object"
  | unknownKey key => "malformed request: unknown key [" ++ key ++ "] in search request"
  | notAnInteger key => "malformed request: [" ++ key ++ "] must be an integer"

/-- Why a search cannot be compiled. -/
inductive SearchError where
  /-- The body is refused. -/
  | request (cause : RequestError)
  /-- The query is refused. -/
  | query (cause : QueryError)
  /-- The aggregations are refused. -/
  | aggregation (cause : AggregationError)
  /-- The order is refused. -/
  | sort (cause : SortError)
  deriving BEq, Repr

namespace SearchError

/-- The class of a cause. -/
def kind : SearchError → String
  | request _ => "parse_exception"
  | query cause => cause.kind
  | aggregation _ => "aggregation_initialization_exception"
  | sort _ => "sort_parse_exception"

/-- The wording of a cause. -/
def message : SearchError → String
  | request cause => cause.message
  | query cause => cause.message
  | aggregation cause => cause.message
  | sort cause => cause.message

end SearchError

/-- What shapes the reading of a request and is not in its body. -/
structure RequestOptions where
  /-- Refuse entries of the order that cannot be read. -/
  strictSort : Bool := false
  /-- How many hits a page has where the body does not say. -/
  defaultSize : Int64 := 10
  deriving DecidableEq, Repr

/-- A search request. -/
structure Request where
  /-- What is asked of a document. -/
  predicate : Predicate
  /-- What is computed over the hits. -/
  aggregations : Aggregations
  /-- How many hits are passed over. -/
  offset : Int64
  /-- How many hits are returned. -/
  size : Int64
  /-- The order of the hits. -/
  sort : List SortClause
  /-- The text of the body. -/
  source : String
  deriving Repr

namespace Request

/-- Members that are accepted and have no effect. -/
def ignoredKeys : List String :=
  ["_source", "explain", "min_score", "stored_fields", "timeout", "track_scores",
   "track_total_hits", "version"]

/-- The request for every document. -/
def everything (options : RequestOptions) (source : String) : Request :=
  ⟨.matchAll, [], 0, options.defaultSize, [], source⟩

/-- The integer that a member spells: a number, or a string around blanks.  `null`
asks for the default. -/
def pageNumber? (default : Int64) : Json → Option Int64
  | .num (.int n) => int64? n
  | .str s => readInt64 (Text.trim s)
  | .null => some default
  | _ => none

/-- A number of the page; a negative one becomes the default. -/
def pageNumber (key : String) (default : Int64) (v : Json) : Except SearchError Int64 :=
  match pageNumber? default v with
  | some n => .ok (if n < 0 then default else n)
  | none => .error (.request (.notAnInteger key))

/-- A request, and whether its aggregations have been read. -/
structure Draft where
  /-- What has been read. -/
  request : Request
  /-- Whether there were aggregations. -/
  aggregated : Bool := false

/-- Read a member of the body. -/
def member (options : RequestOptions) (p : Draft) : String × Json → Except SearchError Draft
  | (key, v) => do
    let r := p.request
    if key = "query" then
      let predicate ← (Predicate.ofJson v).mapError .query
      return { p with request := { r with predicate } }
    else if key = "aggs" ∨ key = "aggregations" then
      if p.aggregated then .error (.aggregation .bothSpellings)
      else
        let aggregations ← (Aggregations.ofJson v).mapError .aggregation
        return ⟨{ r with aggregations }, true⟩
    else if key = "sort" then
      let sort ← (SortClause.ofJson options.strictSort v).mapError .sort
      return { p with request := { r with sort } }
    else if key = "from" then
      return { p with request := { r with offset := ← pageNumber key 0 v } }
    else if key = "size" then
      return { p with request := { r with size := ← pageNumber key options.defaultSize v } }
    else if ignoredKeys.contains key then return p
    else .error (.request (.unknownKey key))

/-- The request of a body. -/
def read (options : RequestOptions) (source : String) : Except SearchError Request :=
  let start := everything options source
  if Text.isAllBlank source then .ok start
  else
    match Json.read source with
    | none => .error (.request .invalidJson)
    | some (.obj members) => (members.foldlM (member options) ⟨start, false⟩).map (·.request)
    | some _ => .error (.request .notAnObject)

/-- Requests are the same when their text is. -/
instance : BEq Request := ⟨fun r s => r.source == s.source⟩

instance : Hashable Request := ⟨fun r => hash r.source⟩

/-- The digest of the text, which identifies the request. -/
def fingerprint (r : Request) : String := Digest.ofText r.source

end Request

end DocSearch
