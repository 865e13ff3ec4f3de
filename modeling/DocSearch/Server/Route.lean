import DocSearch.Digest
import DocSearch.Json.Reader

/-!
# Addresses

The path of a request says what it is about: a search, a query to validate, the
mapping of an index, or documents.  A fixed word comes before a name.  Names are
written with percent escapes.  The last name of a path is not empty; the others may be.
An address may name a scheme and a host in front of its path.

## Main definitions

* `splitAddress` — the path and the query of an address.
* `percentDecode`, `decodeName?` — undo percent escapes.
* `Method` — what a request wants done.
* `Route` — what a path is about, `Route.ofPath?`.
* `PageParameters.read?` — the page that the query of an address asks for.
-/

namespace DocSearch

/-! ### Percent escapes -/

/-- The value of a byte that is a hexadecimal digit. -/
def hexOfByte? (b : UInt8) : Option Nat := hexValue? (Char.ofNat b.toNat)

/-- Replace each percent sign with two hexadecimal digits behind it by the byte that
they spell. -/
def percentDecode : List UInt8 → List UInt8
  | b :: high :: low :: rest =>
    match hexOfByte? high, hexOfByte? low with
    | some h, some l =>
      if b = 0x25 then UInt8.ofNat (16 * h + l) :: percentDecode rest
      else b :: percentDecode (high :: low :: rest)
    | _, _ => b :: percentDecode (high :: low :: rest)
  | bytes => bytes

/-- The text that bytes encode, if they do. -/
def decodeUtf8? (bytes : List UInt8) : Option String := String.fromUTF8? ⟨bytes.toArray⟩

/-- A name of a path. -/
def decodeName? (s : String) : Option String := decodeUtf8? (percentDecode (Text.utf8 s))

/-- A name or value of a query, in which a plus sign is a blank. -/
def decodeComponent? (s : String) : Option String :=
  decodeUtf8? (percentDecode ((Text.utf8 s).map fun b => if b = 0x2B then 0x20 else b))

/-! ### Addresses -/

/-- Whether a character may stand in the name of a scheme. -/
def isSchemeChar (c : Char) : Bool := c.isAlphanum || c == '+' || c == '-' || c == '.'

/-- Whether a character ends the name of a host. -/
def endsHost (c : Char) : Bool := c == '/' || c == '?' || c == '#'

/-- An address without its scheme and host.  Behind a host the path is at least a slash,
and without a scheme there is nothing but a host. -/
def withoutHost (address : List Char) : List Char :=
  if address.head?.any endsHost then address
  else
    match address.dropWhile isSchemeChar with
    | ':' :: '/' :: '/' :: rest =>
      let behind := rest.dropWhile (!endsHost ·)
      if behind.head? == some '/' then behind else '/' :: behind
    | _ => []

/-- The path and the query of an address. -/
def splitAddress (address : String) : String × String :=
  let cs := (withoutHost address.toList).takeWhile (· != '#')
  (String.ofList (cs.takeWhile (· != '?')), String.ofList ((cs.dropWhile (· != '?')).drop 1))

/-! ### Methods -/

/-- The method of a request. -/
inductive Method where
  /-- Read. -/
  | get
  /-- Read without the body. -/
  | head
  /-- Send. -/
  | post
  /-- Write. -/
  | put
  /-- Ask what is allowed. -/
  | options
  /-- Anything else. -/
  | other
  deriving DecidableEq, Repr

/-- The method of a name. -/
def Method.ofName (name : String) : Method :=
  if name = "GET" then get
  else if name = "HEAD" then head
  else if name = "POST" then post
  else if name = "PUT" then put
  else if name = "OPTIONS" then options
  else other

/-! ### Routes -/

/-- What a path is about. -/
inductive Route where
  /-- A search in all indices. -/
  | searchAll
  /-- A search in some indices. -/
  | searchIndices (indices : String)
  /-- A search for some types in some indices. -/
  | searchTypes (indices types : String)
  /-- Whether a query is valid for some indices. -/
  | validate (indices : String)
  /-- The mapping of an index. -/
  | mapping (index : String)
  /-- The documents of a type. -/
  | documents (index docType : String)
  /-- A document. -/
  | document (index docType id : String)
  deriving DecidableEq, Repr

namespace Route

/-- The route of the segments of a path whose last one is not empty. -/
def ofSegments? : List String → Option Route
  | ["_search"] => some searchAll
  | [i, "_search"] => some (searchIndices i)
  | [i, "_mapping"] => some (mapping i)
  | [i, t] => some (documents i t)
  | [i, "_validate", "query"] => some (validate i)
  | [i, t, "_search"] => some (searchTypes i t)
  | [i, t, d] => some (document i t d)
  | _ => none

/-- The route of a path, with its names as they are written. -/
def ofPath? (path : String) : Option Route :=
  match Text.splitOn '/' path with
  | "" :: segments => if segments.getLast? = some "" then none else ofSegments? segments
  | _ => none

/-- Whether a method makes sense for a route. -/
def allows : Route → Method → Bool
  | searchAll, m | searchIndices _, m | searchTypes _ _, m | validate _, m =>
    m = .get || m = .head || m = .post
  | mapping _, m => m = .get || m = .head || m = .put
  | documents _ _, m => m = .post
  | document _ _ _, m => m = .put

/-- The route with the percent escapes of its names undone; there is none if a name is
no text. -/
def decoded? : Route → Option Route
  | searchAll => some searchAll
  | searchIndices i => return searchIndices (← decodeName? i)
  | searchTypes i t => return searchTypes (← decodeName? i) (← decodeName? t)
  | validate i => return validate (← decodeName? i)
  | mapping i => return mapping (← decodeName? i)
  | documents i t => return documents (← decodeName? i) (← decodeName? t)
  | document i t d => return document (← decodeName? i) (← decodeName? t) (← decodeName? d)

end Route

/-! ### Queries of addresses -/

/-- The page that the query of an address asks for. -/
structure PageParameters where
  /-- How many hits are passed over. -/
  offset : Option Int64 := none
  /-- How many hits are returned. -/
  size : Option Int64 := none
  deriving DecidableEq, Repr

namespace PageParameters

/-- A name and its value, divided by the first equals sign. -/
def splitPair (s : String) : String × String :=
  let cs := s.toList
  (String.ofList (cs.takeWhile (· != '=')), String.ofList ((cs.dropWhile (· != '=')).drop 1))

/-- The pairs of a query. -/
def pairs (query : String) : List (String × String) :=
  ((Text.splitOn '&' query).filter (!·.isEmpty)).map splitPair

/-- Set a parameter that is not set yet. -/
def set? (old : Option Int64) (value : String) : Option (Option Int64) :=
  if old.isSome then none else ((decodeComponent? value).bind readInt64).map some

/-- Take a pair in; names that are not known are passed over. -/
def add? (p : PageParameters) : String × String → Option PageParameters
  | (name, value) =>
    if decodeComponent? name = some "from" then
      (set? p.offset value).map fun offset => { p with offset }
    else if decodeComponent? name = some "size" then
      (set? p.size value).map fun size => { p with size }
    else some p

/-- The page that a query asks for; it is refused if a parameter is no integer or is
given twice. -/
def read? (query : String) : Option PageParameters := (pairs query).foldlM add? {}

end PageParameters

end DocSearch
