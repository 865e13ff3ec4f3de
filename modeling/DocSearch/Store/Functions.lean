import DocSearch.Engine.Error
import DocSearch.Json.Reader
import DocSearch.Store.Cell
import DocSearch.Time.Timestamp

/-!
# Scalar functions

A conversion in a statement must not guess: a text that is no number is an error
and not zero.  Five functions convert strictly; an empty cell stays empty.

## Main definitions

* `Argument` — what a function is applied to.
* `ScalarFunction` — the five functions by name, and `ScalarFunction.call?`.
-/

namespace DocSearch

/-- What a function is applied to. -/
inductive Argument where
  /-- A cell. -/
  | cell (c : Cell)
  /-- Bytes that are no text. -/
  | bytes
  deriving DecidableEq, Repr

/-- The scalar functions. -/
inductive ScalarFunction where
  /-- A number, read from its text if need be. -/
  | numeric
  /-- Milliseconds as an integer. -/
  | epochMillis
  /-- The instant that a text spells, in milliseconds. -/
  | parseTimestamp
  /-- The start of the period that an instant lies in. -/
  | dateTrunc
  /-- The text of a JSON value. -/
  | text
  deriving DecidableEq, Repr

namespace ScalarFunction

/-- The name of a function. -/
def name : ScalarFunction → String
  | numeric => "sift_numeric"
  | epochMillis => "sift_epoch_millis"
  | parseTimestamp => "sift_parse_timestamp"
  | dateTrunc => "sift_date_trunc"
  | text => "sift_text"

/-- All functions. -/
def all : List ScalarFunction := [numeric, epochMillis, parseTimestamp, dateTrunc, text]

/-- The function of a name. -/
def named? (name : String) : Option ScalarFunction := all.find? fun f => f.name == name

/-- The number that a text spells between blanks: an integer if it fits into 64
bits, otherwise a finite double. -/
def readNumeric? (s : String) : Option Cell :=
  let trimmed := Text.trim s
  ((readInt64 trimmed).map .integer).or (((readFloat trimmed).filter Float.isFinite).map .real)

/-- A number; a text must spell one. -/
def toNumeric : Argument → Except EvaluationError Cell
  | .cell (.text s) =>
    match readNumeric? s with
    | some c => .ok c
    | none => .error (.notNumeric s)
  | .cell c => .ok c
  | .bytes => .error .numericOfBytes

/-- Milliseconds as an integer; a fraction is cut off towards zero. -/
def toEpochMillis (a : Argument) : Except EvaluationError Cell :=
  (toNumeric a).map fun
    | .real x => .integer (truncateFloat x)
    | c => c

/-- The instant of a text; an integer is an instant already. -/
def toTimestamp : Argument → Except EvaluationError Cell
  | .cell .null => .ok .null
  | .cell (.integer n) => .ok (.integer n)
  | .cell (.text s) =>
    match Timestamp.read s with
    | some n => .ok (.integer n)
    | none => .error (.notTimestamp s)
  | _ => .error .timestampOfOther

/-- The name of the kind of an argument in the wording of an error. -/
def kindName : Argument → String
  | .cell .null => "Null"
  | .cell (.integer _) => "Integer"
  | .cell (.real _) => "Real"
  | .cell (.text _) => "Text"
  | .bytes => "Blob"

/-- The start of the period of an instant. -/
def truncate (i : Interval) : Argument → Except EvaluationError Cell
  | .cell .null => .ok .null
  | .cell (.integer n) =>
    match i.floor? n.toInt with
    | some start => .ok (.integer (Int64.ofInt start))
    | none => .error (.outOfRange n)
  | _ => .error .truncateOfOther

/-- The start of the period of an instant, the length of the period being named by a
text. -/
def toPeriodStart : Argument → Argument → Except EvaluationError Cell
  | .cell (.text unit), instant =>
    match Interval.ofName? unit with
    | some i => truncate i instant
    | none => .error (.unknownUnit unit)
  | a, _ => .error (.unitNotText (kindName a))

/-- The text of a JSON document: the characters of a string, nothing for `null`, and
the compact spelling of anything else.  A text that is no document stays as it is. -/
def textOfJson (s : String) : Cell :=
  match Json.read s with
  | some .null => .null
  | some (.str t) => .text t
  | some v => .text v.print
  | none => .text s

/-- The text of a JSON value. -/
def toText : Argument → Except EvaluationError Cell
  | .cell .null => .ok .null
  | .cell (.integer n) => .ok (.text (toString n.toInt))
  | .cell (.real x) => .ok (.text (plainText x))
  | .cell (.text s) => .ok (textOfJson s)
  | .bytes => .error .textOfBytes

/-- The result of a function; there is none for the wrong number of arguments. -/
def call? : ScalarFunction → List Argument → Option (Except EvaluationError Cell)
  | numeric, [a] => some (toNumeric a)
  | epochMillis, [a] => some (toEpochMillis a)
  | parseTimestamp, [a] => some (toTimestamp a)
  | dateTrunc, [unit, instant] => some (toPeriodStart unit instant)
  | text, [a] => some (toText a)
  | _, _ => none

end ScalarFunction

end DocSearch
