import DocSearch.Mapping
import DocSearch.Request

/-!
# Settings of the server

The settings are given in three sections and a table of mappings, all of which may
be left out.  A section is an object, or an array of its settings in their order.
Members that are not known are passed over; a setting of the wrong kind is refused.

## Main definitions

* `Config` — the settings with their defaults.
* `Config.ofJson?` — the settings of a JSON document.
-/

namespace DocSearch

/-- The settings of the server. -/
structure Config where
  /-- How many milliseconds a request may take. -/
  requestTimeout : Nat := 30000
  /-- How many bytes the body of a request may have. -/
  maxBodyBytes : Nat := 10485760
  /-- The file of the database. -/
  databasePath : String := "sift.db"
  /-- How many milliseconds to wait for a busy database. -/
  busyTimeout : Nat := 5000
  /-- How many hits a page has where a request does not say. -/
  defaultSize : Int64 := 10
  /-- Refuse entries of an order that cannot be read. -/
  strictSort : Bool := false
  /-- The types of fields by index. -/
  mappings : List (String × FieldTypes) := []

namespace Config

/-- What the settings say about reading requests. -/
def requestOptions (c : Config) : RequestOptions := ⟨c.strictSort, c.defaultSize⟩

/-- The values of the members `names`: those of an object, or the items of an array
that has no more of them. -/
def values? (names : List String) : Json → Option (List (Option Json))
  | .obj members => some (names.map fun name => members.lookup name)
  | .arr items =>
    if items.length ≤ names.length then
      some (items.map some ++ List.replicate (names.length - items.length) none)
    else none
  | _ => none

/-- A setting, or its default where it is left out. -/
def setting? {α : Type} (read? : Json → Option α) (default : α) : Option Json → Option α
  | some v => read? v
  | none => some default

/-- An integer without sign of 64 bits. -/
def natural? : Json → Option Nat
  | .num (.int n) => if 0 ≤ n ∧ n < UInt64.size then some n.toNat else none
  | _ => none

/-- An integer with sign of 64 bits. -/
def integer? : Json → Option Int64
  | .num (.int n) => int64? n
  | _ => none

/-- A truth value. -/
def bool? : Json → Option Bool
  | .bool b => some b
  | _ => none

/-- The settings of the section `server`. -/
def withServer? (c : Config) (part : Json) : Option Config := do
  match ← values? ["request_timeout_ms", "max_body_bytes"] part with
  | [timeout, maxBody] =>
    return { c with
      requestTimeout := ← setting? natural? c.requestTimeout timeout
      maxBodyBytes := ← setting? natural? c.maxBodyBytes maxBody }
  | _ => none

/-- The settings of the section `storage`. -/
def withStorage? (c : Config) (part : Json) : Option Config := do
  match ← values? ["path", "busy_timeout_ms"] part with
  | [path, timeout] =>
    return { c with
      databasePath := ← setting? Json.string? c.databasePath path
      busyTimeout := ← setting? natural? c.busyTimeout timeout }
  | _ => none

/-- The settings of the section `search`. -/
def withSearch? (c : Config) (part : Json) : Option Config := do
  match ← values? ["default_size", "strict_sort"] part with
  | [size, strict] =>
    return { c with
      defaultSize := ← setting? integer? c.defaultSize size
      strictSort := ← setting? bool? c.strictSort strict }
  | _ => none

/-- The types of fields by index. -/
def withMappings? (c : Config) (table : Json) : Option Config := do
  return { c with mappings := ← Mappings.settings? table }

/-- Read a section if it is there. -/
def withPart? (c : Config) (read? : Config → Json → Option Config) :
    Option Json → Option Config
  | some v => read? c v
  | none => some c

/-- The settings of a JSON document. -/
def ofJson? (v : Json) : Option Config := do
  match ← values? ["server", "storage", "search", "mappings"] v with
  | [server, storage, search, mappings] =>
    let c ← withPart? {} withServer? server
    let c ← c.withPart? withStorage? storage
    let c ← c.withPart? withSearch? search
    c.withPart? withMappings? mappings
  | _ => none

end Config

end DocSearch
