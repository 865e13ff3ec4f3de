import DocSearch.Engine.Walk
import DocSearch.Json.Reader
import DocSearch.Query.Compile

/-!
# Searches

A search reads the request, finds the tables of the indices, compiles the query
once, walks the aggregations over it, drops the temporary tables whatever came of
the walk, and fetches a page of hits.

## Main definitions

* `resolveTargets` — the indices of a search with their tables.
* `runRequest` — the walk and the clean-up.
* `fetchHits` — the number of hits and a page of them.
* `search` — a whole search.
* `explain` — the statement for the hits, for people to read.
* `Response.toJson` — the answer on the wire.
-/

namespace DocSearch

open Sql

/-! ### Answers -/

/-- A document that was found. -/
structure Hit where
  /-- The index. -/
  index : String
  /-- The type. -/
  docType : String
  /-- The identifier. -/
  id : String
  /-- The document. -/
  source : Json

/-- The documents that were found. -/
structure Hits where
  /-- How many there are. -/
  total : Nat
  /-- Those of the page. -/
  hits : List Hit

/-- The answer to a search. -/
structure Response where
  /-- The documents. -/
  hits : Hits
  /-- The results of the aggregations. -/
  aggregations : List (String × Json)

/-- A hit on the wire; it has no score. -/
def Hit.toJson (h : Hit) : Json :=
  .obj [("_index", .str h.index), ("_type", .str h.docType), ("_id", .str h.id), ("_score", .null),
    ("_source", h.source)]

/-- An answer on the wire, given how many milliseconds the search took. -/
def Response.toJson (r : Response) (took : Nat) : Json :=
  .obj [("took", .ofInt took), ("timed_out", .bool false),
    ("hits", .obj [("total", .ofInt r.hits.total), ("max_score", .null),
      ("hits", .arr (r.hits.hits.map Hit.toJson))]),
    ("aggregations", .obj r.aggregations)]

/-! ### The walk and the clean-up -/

variable {σ : Type}

/-- What a walk gives before the hits are fetched. -/
structure Outcome where
  /-- What the hits have to meet. -/
  condition : Option Condition
  /-- The results of the aggregations. -/
  aggregations : List (String × Json)

/-- Compile the query, walk the aggregations over it and drop the temporary tables.
A failure of the walk comes before one of the clean-up. -/
def runRequest (b : Backend σ) (c : SearchContext) (r : Request) :
    Run σ ExecutionError Outcome := do
  let condition ← Run.lift (r.predicate.compile.mapError (.search ∘ .query))
  let base := Source.documents c.targets c.types condition
  let walk ← (withScope base (Aggregations.execute b c r.aggregations)).capture
  let released ← (release b).capture
  let aggregations ← Run.lift (walk : Except ExecutionError _)
  Run.lift (released.mapError .aggregation)
  return ⟨condition, aggregations⟩

/-! ### Targets -/

/-- Whether a list of indices stands for all of them. -/
def meansAllIndices (indices : List String) : Bool :=
  indices.isEmpty || indices.any fun i => i == "_all" || i == "*"

/-- The table of an index that has to be there. -/
def targetFor (lookup : String → Except StoreError (Option String)) (index : String) :
    Except ExecutionError Target :=
  match lookup index with
  | .ok (some table) => .ok ⟨index, table⟩
  | .ok none => .error (.noSuchIndex index)
  | .error (.invalidIndexName _) => .error (.noSuchIndex index)
  | .error e => .error (.store e)

/-- The targets of a list of names, each index once. -/
def targetsFor (lookup : String → Except StoreError (Option String)) (names : List String) :
    Except ExecutionError (List Target) :=
  names.foldlM (fun targets index => do
    let t ← targetFor lookup index
    return if targets.any (·.index == index) then targets else targets ++ [t]) []

/-- The indices of a search with their tables: all of them, or those that are named. -/
def resolveTargets (b : Backend σ) (indices : List String) :
    Run σ ExecutionError (List Target) := do
  let state ← Run.read (·.state)
  let names ← Run.lift <|
    if meansAllIndices indices then (b.listIndices state).mapError .store else .ok indices
  Run.lift (targetsFor (fun index => b.tableFor index state) names)

/-! ### Hits -/

/-- The text of a column of a hit. -/
def columnText : Value → String
  | .text s => s
  | v => v.toJson.print

/-- The hit of a row. -/
def Hit.ofRow (row : Row) : Except StoreError Hit := do
  let column (i : Nat) : Option String := row[i]?.map columnText
  let source ← match column 3 with
    | none => pure Json.null
    | some doc =>
      match Json.read doc with
      | some v => pure v
      | none => .error .invalidDocument
  return ⟨(column 0).getD "", (column 2).getD "", (column 1).getD "", source⟩

/-- The number of hits and a page of them.  Without a page, or without indices, only
the number is asked for. -/
def fetchHits (b : Backend σ) (c : SearchContext) (condition : Option Condition)
    (sort : List SortClause) (size offset : Int64) : Run σ StoreError Hits := do
  let source := Source.documents c.targets c.types condition
  let rows ← issue b (.count source)
  let total := ((firstValue rows).toInt64?.getD 0).toInt.toNat
  if size = 0 ∨ c.targets.isEmpty then return ⟨total, []⟩
  else
    let rows ← issue b (.page source sort size offset)
    return ⟨total, ← Run.lift (rows.mapM Hit.ofRow)⟩

/-! ### Whole searches -/

/-- What a search is asked for: the body, where to look, and a page that comes
before the one in the body unless it is negative. -/
structure SearchCall where
  /-- The text of the request. -/
  body : String
  /-- The indices. -/
  indices : List String := []
  /-- The types. -/
  types : List String := []
  /-- How many hits are passed over. -/
  offset : Option Int64 := none
  /-- How many hits are returned. -/
  size : Option Int64 := none

/-- A number of the page that was asked for, unless it is negative. -/
def pageOverride (asked : Option Int64) (fromBody : Int64) : Int64 :=
  (asked.filter fun n => 0 ≤ n).getD fromBody

/-- Read a request. -/
def readRequest (options : RequestOptions) (body : String) : Except ExecutionError Request :=
  (Request.read options body).mapError .search

/-- A whole search. -/
def search (b : Backend σ) (mappings : Mappings) (options : RequestOptions) (call : SearchCall) :
    Run σ ExecutionError Response := do
  let r ← Run.lift (readRequest options call.body)
  let targets ← resolveTargets b call.indices
  let c : SearchContext := ⟨targets, call.types, mappings, r.source⟩
  let found ← withScope (.documents targets call.types none) (runRequest b c r)
  checkCancelled b
  let hits ← (fetchHits b c found.condition r.sort (pageOverride call.size r.size)
    (pageOverride call.offset r.offset)).mapError .hits
  return ⟨hits, found.aggregations⟩

/-- The statement for the hits of a request in one index, with the values written
in. -/
def explain (b : Backend σ) (options : RequestOptions) (body index : String) :
    Run σ ExecutionError String := do
  let r ← Run.lift (readRequest options body)
  let targets ← resolveTargets b [index]
  let condition ← Run.lift (r.predicate.compile.mapError (.search ∘ .query))
  let table := (targets.head?.map fun t => quoteIdent t.table).getD ""
  let filter := Condition.render? b.dialect condition
  let order := SortClause.orderBy b.dialect r.sort
  let statement := .raw ("SELECT id, type, doc FROM " ++ table)
    ++ (if filter.isEmpty then filter else .raw " WHERE " ++ filter)
    ++ .raw (if order.isEmpty then "" else " " ++ order)
  return statement.inline

/-- The world in which a search starts. -/
def World.start (state : σ) : World σ := { state, scope := .documents [] [] none }

end DocSearch
