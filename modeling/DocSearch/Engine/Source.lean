import DocSearch.Engine.Index
import DocSearch.Sql.Condition

/-!
# Sources of rows

A statement reads from the documents of some indices, restricted by type and by a
condition, or from a temporary table.

## Main definitions

* `Source` — what a statement reads from.
* `documentsFragment` — the documents of indices as a table expression.
* `Source.render` — a source as it follows `FROM`.
-/

namespace DocSearch

open Sql

/-- What a statement reads from. -/
inductive Source where
  /-- A table. -/
  | table (name : String)
  /-- The documents of `targets`, of one of `types` if any are given, that meet
  `filter` if there is one. -/
  | documents (targets : List Target) (types : List String) (filter : Option Condition)
  deriving Repr

/-- The source without rows. -/
def noDocuments : Fragment :=
  .raw ("(SELECT NULL AS sift_index, NULL AS id, NULL AS type, NULL AS doc "
    ++ "WHERE 1 = 0) AS q")

/-- The rows of a target with the name of its index. -/
def targetRows (t : Target) : String :=
  "SELECT " ++ quoteLiteral t.index ++ " AS sift_index, id, type, doc FROM " ++ quoteIdent t.table

/-- The restriction to types, if any are given. -/
def typeFilter (types : List String) : Fragment :=
  if types.isEmpty then .empty
  else ⟨"type IN (" ++ placeholders types.length ++ ")", types.map .text⟩

/-- The documents of `targets` of one of `types` that meet `filter`. -/
def documentsFragment (targets : List Target) (types : List String) (filter : Fragment) :
    Fragment :=
  if targets.isEmpty then noDocuments
  else
    let union := Text.joinWith " UNION ALL " (targets.map targetRows)
    let condition := Fragment.join " AND " [typeFilter types, filter]
    let restriction := if condition.isEmpty then condition else .raw " WHERE " ++ condition
    .raw ("(SELECT sift_index, id, type, doc FROM (" ++ union ++ ") AS src") ++ restriction
      ++ .raw ") AS q"

/-- A source as it follows `FROM`. -/
def Source.render (d : Dialect) : Source → Fragment
  | .table name => .raw (quoteIdent name)
  | .documents targets types filter => documentsFragment targets types (Condition.render? d filter)

end DocSearch
