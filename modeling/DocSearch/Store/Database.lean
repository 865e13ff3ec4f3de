import DocSearch.Engine.Index
import DocSearch.Members
import DocSearch.Store.Document

/-!
# Databases

A database holds a table for each index, whose rows are keyed by type and
identifier, and the temporary tables of searches.  A document that is stored again
goes behind all others.

## Main definitions

* `Database` — the tables.
* `Database.createIndex`, `Database.store` — create an index, store a document.
* `Database.tableFor`, `Database.listIndices` — what indices there are.
-/

namespace DocSearch

/-- A row of a temporary table. -/
structure TemporaryRow where
  /-- The bucket that the document is in, if there is one. -/
  bucket : Option Int64
  /-- The document. -/
  document : Document

/-- The tables of a database. -/
structure Database where
  /-- The documents of the indices, in the order in which the indices were created;
  the documents are in the order in which they were stored. -/
  indices : List (String × List Document) := []
  /-- The temporary tables by name. -/
  temporary : List (String × List TemporaryRow) := []

/-- Whether a stored document is new. -/
inductive IndexOutcome where
  /-- There was none of this type and identifier. -/
  | created
  /-- It took the place of another one. -/
  | updated
  deriving DecidableEq, Repr

namespace IndexOutcome

/-- The name of an outcome. -/
def name : IndexOutcome → String
  | created => "created"
  | updated => "updated"

end IndexOutcome

namespace Database

/-- No tables. -/
def empty : Database := {}

/-- The documents of an index, if it is there. -/
def documents? (db : Database) (index : String) : Option (List Document) := db.indices.lookup index

/-- Create an index unless it is there. -/
def createIndex (db : Database) (index : String) : Except StoreError Database := do
  let _ ← Index.tableName index
  return if (db.documents? index).isSome then db
    else { db with indices := db.indices ++ [(index, [])] }

/-- Store a document in an index, which is created if need be.  A document of the same
type and identifier is replaced. -/
def store (db : Database) (index : String) (d : Document) :
    Except StoreError (IndexOutcome × Database) := do
  let db ← db.createIndex index
  let rows := (db.documents? index).getD []
  let outcome := if rows.any d.sameKey then IndexOutcome.updated else .created
  let rows := rows.filter (!d.sameKey ·) ++ [d]
  return (outcome, { db with indices := Members.put index rows db.indices })

/-- The table of an index, if the index is there. -/
def tableFor (db : Database) (index : String) : Except StoreError (Option String) := do
  let table ← Index.tableName index
  return if (db.documents? index).isSome then some table else none

/-- The indices in the order of their names. -/
def listIndices (db : Database) : List String :=
  (Members.names db.indices).mergeSort fun a b => !(b < a)

/-- The rows of the table of an index, by the name of the table. -/
def indexTable? (db : Database) (table : String) : Option (List Document) :=
  (db.indices.find? fun (index, _) => Index.tablePrefix ++ index == table).map (·.2)

/-- The rows of a temporary table. -/
def temporaryTable? (db : Database) (name : String) : Option (List TemporaryRow) :=
  db.temporary.lookup name

/-- Add a temporary table. -/
def addTemporary (db : Database) (name : String) (rows : List TemporaryRow) : Database :=
  { db with temporary := (name, rows) :: db.temporary }

/-- Drop a temporary table if it is there. -/
def dropTemporary (db : Database) (name : String) : Database :=
  { db with temporary := db.temporary.filter fun (key, _) => key != name }

end Database

end DocSearch
