import DocSearch.Decimal.DoubleDouble
import DocSearch.Engine.Statement
import DocSearch.Sql.Like
import DocSearch.Sql.Satisfaction
import DocSearch.Store.Functions
import DocSearch.Store.Path

/-!
# Documents as rows

A document has a type, an identifier and a body.  A field is one of the two columns
or a member of the body, read as a cell or as text.  Tests on fields have three
truth values: what involves an empty cell is unknown.

## Main definitions

* `Document` — a row.
* `Document.fieldValue`, `Document.fieldText` — a field as a cell.
* `Document.holds` — the truth of a test.
* `Document.bucketKey` — the start of the period of a field.
* `Document.meets` — whether a document meets a condition.
-/

namespace DocSearch

open Sql

/-- A stored document. -/
structure Document where
  /-- Its type. -/
  docType : String
  /-- Its identifier. -/
  id : String
  /-- What it says. -/
  body : Json
  deriving BEq, Repr

/-- Whether two documents have the same key. -/
def Document.sameKey (d e : Document) : Bool := d.docType == e.docType && d.id == e.id

/-! ### Members as cells -/

namespace Cell

/-- A member as a JSON text; a missing one is empty. -/
def ofMemberText : Option Json → Cell
  | none => null
  | some v => text v.print

/-- A number of a document as the database reads it from its text. -/
def ofNumber : Number → Cell
  | .int n => (int64? n).elim (real (rereadInt n)) integer
  | .real x => real (rereadFloat x)

/-- A member as the database reads it: a number beyond 64-bit integers is a double, a
truth value is one or zero, and an array or object is its text. -/
def ofMember : Option Json → Cell
  | none => null
  | some .null => null
  | some (.bool b) => integer (if b then 1 else 0)
  | some (.num n) => ofNumber n
  | some (.str s) => text s
  | some v => text v.print

end Cell

namespace Document

/-- The member of the body that a field names. -/
def member? (d : Document) (field : String) : Except EvaluationError (Option Json) :=
  let path := Dialect.sqlitePath field
  (followPath path d.body).mapError fun _ => .badPath path

/-- The column of a reserved field. -/
def column? (d : Document) (field : String) : Option String :=
  if field = "_id" then some d.id else if field = "_type" then some d.docType else none

/-- A field as a cell. -/
def fieldValue (d : Document) (field : String) : Except EvaluationError Cell :=
  match d.column? field with
  | some s => .ok (.text s)
  | none => (d.member? field).map Cell.ofMember

/-- A field as text, whatever its kind. -/
def fieldText (d : Document) (field : String) : Except EvaluationError Cell :=
  match d.column? field with
  | some s => .ok (.text s)
  | none => do ScalarFunction.toText (.cell (Cell.ofMemberText (← d.member? field)))

/-- A field as a number. -/
def fieldNumber (d : Document) (field : String) : Except EvaluationError Cell := do
  ScalarFunction.toNumeric (.cell (← d.fieldValue field))

/-- The instant of a field. -/
def fieldInstant (d : Document) (field : String) (source : TimestampSource) :
    Except EvaluationError Cell := do
  let value := Argument.cell (← d.fieldValue field)
  match source with
  | .formatted => ScalarFunction.toTimestamp value
  | .epochMillis => ScalarFunction.toEpochMillis value

/-- The start of the period that the instant of a field lies in. -/
def bucketKey (d : Document) (k : BucketKey) : Except EvaluationError Cell := do
  ScalarFunction.truncate k.interval (.cell (← d.fieldInstant k.field k.source))

end Document

/-! ### Tests -/

/-- The length in bytes that a pattern may have. -/
def maxPatternBytes : Nat := 50000

/-- A character as a pattern sees it: letters of ASCII have no case, and the two
noncharacters at the end of the plane are the replacement character. -/
def foldForLike (c : Char) : Char :=
  if c = '\uFFFE' ∨ c = '\uFFFF' then '\uFFFD' else c.toLower

/-- Whether two characters count as the same in a pattern. -/
def sameForLike (c d : Char) : Bool := foldForLike c == foldForLike d

/-- The characters of a text that patterns see, those before its first NUL. -/
def visibleToLike (s : String) : List Char := s.toList.takeWhile (· != '\x00')

/-- Whether a cell matches a pattern. -/
def Cell.like (c : Cell) (pattern : String) : Except EvaluationError Truth :=
  if maxPatternBytes < pattern.utf8ByteSize then .error .patternTooLong
  else
    match c with
    | .text s => .ok (some (likeMatches sameForLike (visibleToLike pattern) (visibleToLike s)))
    | _ => .ok none

/-- Whether an order satisfies a comparison. -/
def RangeOp.accepts : RangeOp → Ordering → Bool
  | .gt, o => o == .gt
  | .gte, o => o != .lt
  | .lt, o => o == .lt
  | .lte, o => o != .gt

/-- Whether a cell equals one of several values; unknown if it equals none but a
comparison is unknown. -/
def Cell.among (c : Cell) (values : List Value) : Truth :=
  let results := values.map fun v => (c.compare? (Cell.ofValue v)).map (· == .eq)
  if results.contains (some true) then some true
  else if results.contains none then none
  else some false

/-- The truth of a test. -/
def Document.holds (d : Document) : Test → Except EvaluationError Truth
  | .equals field value => do
    return ((← d.fieldText field).compare? (Cell.ofValue value)).map (· == .eq)
  | .among field values => do return (← d.fieldText field).among values
  | .like field pattern => do (← d.fieldText field).like pattern
  | .compareText field op value => do
    return ((← d.fieldText field).compare? (Cell.ofValue value)).map op.accepts
  | .compareNumber field op value => do
    return ((← d.fieldNumber field).compare? (Cell.ofValue value)).map op.accepts
  | .present field => do return some ((← d.fieldValue field) != .null)

/-- Whether a document meets a condition. -/
def Document.meets (d : Document) (c : Condition) : Except EvaluationError Bool :=
  c.met d.holds false

end DocSearch
