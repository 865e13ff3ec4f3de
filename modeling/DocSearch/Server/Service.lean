import DocSearch.Engine.Search
import DocSearch.Server.Config
import DocSearch.Server.Route
import DocSearch.Store.Answer

/-!
# The search service

The service answers requests over HTTP: searches, validations, mappings and
documents.  A request that cannot be understood as such is rejected with a bare
status; a failure behind that is described in the body.

## Main definitions

* `HttpRequest`, `HttpResponse` — requests and responses.
* `Fault` — a failure that is described.
* `Service` — the state of the service, `Service.start`.
* `Service.handle` — the response to a request and the state behind it.
-/

namespace DocSearch

/-! ### Requests and responses -/

/-- A request. -/
structure HttpRequest where
  /-- What to do. -/
  method : Method
  /-- The path of the address, with its escapes. -/
  path : String
  /-- The query of the address, with its escapes. -/
  query : String := ""
  /-- Whether the body is declared to be JSON. -/
  declaresJson : Bool := true
  /-- The body. -/
  body : String := ""

/-- A response. -/
structure HttpResponse where
  /-- The status. -/
  status : Nat
  /-- The body, if there is one. -/
  body : Option Json := none

/-- A failure that is described. -/
structure Fault where
  /-- The status. -/
  status : Nat
  /-- The class of the failure. -/
  kind : String
  /-- The wording. -/
  reason : String

namespace Fault

/-- The failure of a search. -/
def ofExecution (e : ExecutionError) : Fault :=
  let status :=
    if e.isClientError then 400
    else match e with
      | .noSuchIndex _ => 404
      | .timedOut | .cancelled => 504
      | _ => 500
  ⟨status, e.kind, e.message⟩

/-- The failure of the store. -/
def ofStore (e : StoreError) : Fault :=
  match e with
  | .invalidIndexName _ | .invalidDocument => ⟨400, "illegal_argument_exception", e.message⟩
  | _ => ⟨500, "internal_error", e.message⟩

/-- A mapping or a document that is refused. -/
def refused (reason : String) : Fault := ⟨400, "mapper_parsing_exception", reason⟩

/-- The response that describes a failure. -/
def response (f : Fault) : HttpResponse :=
  ⟨f.status, some (.obj [("error", .obj [("type", .str f.kind), ("reason", .str f.reason)]),
    ("status", .ofInt f.status)])⟩

end Fault

/-- A response with a body, unless there is a failure. -/
def respond : Except Fault (Nat × Json) → HttpResponse
  | .ok (status, body) => ⟨status, some body⟩
  | .error f => f.response

/-- The names of a list that is separated by commas; blank ones are dropped. -/
def splitList (s : String) : List String :=
  ((Text.splitOn ',' s).map Text.trim).filter (!·.isEmpty)

/-! ### The service -/

/-- The state of the service. -/
structure Service where
  /-- The settings. -/
  config : Config
  /-- The documents. -/
  database : Database
  /-- The declared types. -/
  mappings : Mappings

/-- What a request needs from outside. -/
structure Surroundings where
  /-- An identifier that no document has. -/
  freshId : String
  /-- How many milliseconds a search takes. -/
  took : Nat := 0

namespace Service

/-- The service before any request. -/
def start (config : Config) : Service := ⟨config, Database.empty, Mappings.ofIndices config.mappings⟩

/-- Whether the body of a request is too long. -/
def isTooLong (s : Service) (r : HttpRequest) : Bool := s.config.maxBodyBytes < r.body.utf8ByteSize

/-- The value at the start of the body, or the status with which it is rejected. -/
def jsonBody (s : Service) (r : HttpRequest) : Except Nat Json :=
  if !r.declaresJson then .error 415
  else if s.isTooLong r then .error 413
  else match Json.readPrefix r.body.toList with
    | some (v, _) => .ok v
    | none => .error 400

/-- Answer a request with the value of its body. -/
def withJson (s : Service) (r : HttpRequest) (f : Json → HttpResponse × Service) :
    HttpResponse × Service :=
  match s.jsonBody r with
  | .ok v => f v
  | .error status => (⟨status, none⟩, s)

/-- Run something against the database. -/
def running {α : Type} (s : Service) (r : Run Session ExecutionError α) :
    Except ExecutionError α × Service :=
  let (result, w) := r.within (World.start ⟨s.database, false⟩)
  (result, { s with database := w.state.database })

/-- Answer a search. -/
def search (s : Service) (around : Surroundings) (indices types : List String)
    (r : HttpRequest) : HttpResponse × Service :=
  match PageParameters.read? r.query with
  | none => (⟨400, none⟩, s)
  | some page =>
    if s.isTooLong r then (⟨413, none⟩, s)
    else
      let call : SearchCall := ⟨r.body, indices, types, page.offset, page.size⟩
      let (result, s) :=
        s.running (DocSearch.search Session.backend s.mappings s.config.requestOptions call)
      (respond ((result.map fun a => (200, a.toJson around.took)).mapError .ofExecution), s)

/-- What is said about a query for an index. -/
def explanation (s : Service) (body index : String) : Bool × Json :=
  match (s.running (explain Session.backend s.config.requestOptions body index)).1 with
  | .ok sql =>
    (true, .obj [("index", .str index), ("valid", .bool true), ("explanation", .str sql)])
  | .error e =>
    (false, .obj [("index", .str index), ("valid", .bool false), ("error", .str e.message)])

/-- Answer whether a query is valid. -/
def validate (s : Service) (indices : List String) (r : HttpRequest) : HttpResponse :=
  if s.isTooLong r then ⟨413, none⟩
  else
    let explanations := indices.map (s.explanation r.body)
    ⟨200, some (.obj [("valid", .bool (explanations.all (·.1))),
      ("explanations", .arr (explanations.map (·.2)))])⟩

/-- Declare the types of fields of an index, which is created if need be. -/
def putMapping (s : Service) (index : String) (body : Json) : HttpResponse × Service :=
  match s.database.createIndex index with
  | .error e => ((Fault.ofStore e).response, s)
  | .ok database =>
    let s := { s with database }
    match s.mappings.putProperties index none body with
    | .error e => ((Fault.refused e.message).response, s)
    | .ok (mappings, _) =>
      (⟨200, some (.obj [("acknowledged", .bool true)])⟩, { s with mappings })

/-- The declared types of an index, in the order of the names of the fields. -/
def getMapping (s : Service) (index : String) : HttpResponse :=
  let fields := (s.mappings.snapshot index).mergeSort fun a b => !(b.1 < a.1)
  let properties := fields.map fun (field, t) => (field, Json.obj [("type", .str t.name)])
  ⟨200, some (.obj [(index, .obj [("mappings", .obj [("properties", .obj properties)])])])⟩

/-- Store a document. -/
def putDocument (s : Service) (index docType id : String) (body : Json) :
    HttpResponse × Service :=
  if !body.isObject then ((Fault.refused "document must be a JSON object").response, s)
  else
    match s.database.store index ⟨docType, id, body⟩ with
    | .error e => ((Fault.ofStore e).response, s)
    | .ok (outcome, database) =>
      let status := match outcome with
        | .created => 201
        | .updated => 200
      (⟨status, some (.obj [("_index", .str index), ("_type", .str docType), ("_id", .str id),
        ("result", .str outcome.name)])⟩, { s with database })

/-- The response to a request for a route that allows its method; whatever is not put
there is read. -/
def serve (s : Service) (around : Surroundings) (r : HttpRequest) :
    Route → HttpResponse × Service
  | .searchAll => s.search around [] [] r
  | .searchIndices i => s.search around (splitList i) [] r
  | .searchTypes i t => s.search around (splitList i) (splitList t) r
  | .validate i => (s.validate (splitList i) r, s)
  | .mapping i => if r.method = .put then s.withJson r (s.putMapping i) else (s.getMapping i, s)
  | .documents i t => s.withJson r (s.putDocument i t around.freshId)
  | .document i t d => s.withJson r (s.putDocument i t d)

/-- The response to a request and the state behind it.  `HEAD` is answered like `GET`,
without the body. -/
def handle (s : Service) (around : Surroundings) (r : HttpRequest) : HttpResponse × Service :=
  if r.method = .options then (⟨200, none⟩, s)
  else
    match Route.ofPath? r.path with
    | none => (⟨404, none⟩, s)
    | some route =>
      if !route.allows r.method then (⟨405, none⟩, s)
      else
        match route.decoded? with
        | none => (⟨400, none⟩, s)
        | some route =>
          let (response, s) := s.serve around r route
          (if r.method = .head then { response with body := none } else response, s)

end Service

end DocSearch
