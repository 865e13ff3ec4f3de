import DocSearch.Field
import DocSearch.Sql.Fragment
import DocSearch.Time.Interval

/-!
# Dialects

A statement is rendered for one of two databases.  They differ in how a member of
a document is addressed, how a text is read as a number, how an instant is
truncated, and how placeholders are written.

## Main definitions

* `Dialect` — the two databases, `Dialect.name` and `Dialect.named?`.
* `Dialect.finalize` — a statement with the placeholders of the database.
* `Dialect.fieldValue`, `Dialect.fieldText` — the expressions that read a field.
* `Dialect.bucketKey` — the expression that truncates an instant.
-/

namespace DocSearch

/-- How a field holds an instant. -/
inductive TimestampSource where
  /-- As a date that is written out. -/
  | formatted
  /-- As a number of milliseconds. -/
  | epochMillis
  deriving DecidableEq, Repr

/-- The database that a statement is rendered for. -/
inductive Dialect where
  /-- SQLite, with the scalar functions of the store. -/
  | sqlite
  /-- PostgreSQL, with documents in a column of type `jsonb`. -/
  | postgres
  deriving DecidableEq, Repr

namespace Dialect

open Sql

/-- The name of a dialect. -/
def name : Dialect → String
  | sqlite => "sqlite"
  | postgres => "postgres"

/-- The dialect of a name, in any case of letters. -/
def named? (name : String) : Option Dialect :=
  let lower := Text.asciiLower name
  if lower = "sqlite" then some sqlite
  else if lower = "postgres" ∨ lower = "postgresql" then some postgres
  else none

/-- A statement with the placeholders of the database: PostgreSQL numbers them. -/
def finalize : Dialect → String → String
  | sqlite, sql => sql
  | postgres, sql =>
    String.ofList (rewritePlaceholders (fun n => '$' :: Nat.toDigits 10 n) false 0 sql.toList)

/-- The path of a field in SQLite. -/
def sqlitePath (field : String) : String :=
  "$" ++ String.join ((Field.segments field).map fun s => "." ++ Field.quotedSegment s)

/-- The path of a field with several segments in PostgreSQL, an array of texts. -/
def postgresPath (field : String) : String :=
  "\x7b" ++ Text.joinWith "," ((Field.segments field).map Field.quotedSegment) ++ "\x7d"

/-- The member of the document that a field names, as a value of the database. -/
def member (d : Dialect) (field : String) : String :=
  match d with
  | sqlite => "doc ->> " ++ quoteLiteral (sqlitePath field)
  | postgres =>
    if field.toList.contains '.' then "doc #>> " ++ quoteLiteral (postgresPath field)
    else "doc ->> " ++ quoteLiteral field

/-- The same member as text, whatever its kind. -/
def memberText (d : Dialect) (field : String) : String :=
  match d with
  | sqlite => "sift_text(doc -> " ++ quoteLiteral (sqlitePath field) ++ ")"
  | postgres => member postgres field

/-- The column of a reserved field. -/
def column? (field : String) : Option String :=
  if field = "_id" then some "id" else if field = "_type" then some "type" else none

/-- The expression for a field as a value of the database. -/
def fieldValue (d : Dialect) (field : String) : String :=
  (column? field).getD (d.member field)

/-- The expression for a field as text. -/
def fieldText (d : Dialect) (field : String) : String :=
  (column? field).getD (d.memberText field)

/-- The expression that reads a number and fails on anything else. -/
def numeric (d : Dialect) (expr : String) : String :=
  match d with
  | sqlite => "sift_numeric(" ++ expr ++ ")"
  | postgres => "(" ++ expr ++ ")::numeric"

/-- The expression for the start of the period, in milliseconds, that an instant
lies in. -/
def bucketKey (d : Dialect) (expr : String) (source : TimestampSource) (interval : Interval) :
    String :=
  match d with
  | sqlite =>
    let millis := match source with
      | .formatted => "sift_parse_timestamp(" ++ expr ++ ")"
      | .epochMillis => "sift_epoch_millis(" ++ expr ++ ")"
    "sift_date_trunc('" ++ interval.unit ++ "', " ++ millis ++ ")"
  | postgres =>
    let instant := match source with
      | .formatted => "(" ++ expr ++ ")::timestamptz AT TIME ZONE 'UTC'"
      | .epochMillis => "to_timestamp((" ++ expr ++ ")::bigint / 1000.0) AT TIME ZONE 'UTC'"
    "(EXTRACT(EPOCH FROM date_trunc('" ++ interval.unit ++ "', " ++ instant ++ ")) * 1000)::bigint"

end Dialect

end DocSearch
