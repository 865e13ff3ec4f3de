import DocSearch.Engine.Error

/-!
# Indices and their tables

An index is stored in a table of its own.  The name of an index becomes part of
the name of that table, so it is restricted.

## Main definitions

* `Index.isValidName` — the names that an index may have.
* `Index.tableName` — the table of an index.
* `Target` — an index and its table.
-/

namespace DocSearch

namespace Index

/-- A lower-case ASCII letter or a digit. -/
def isNameStart (c : Char) : Bool := ('a' ≤ c && c ≤ 'z') || c.isDigit

/-- A character behind the first one of a name. -/
def isNameRest (c : Char) : Bool := isNameStart c || c == '_' || c == '.' || c == '+' || c == '-'

/-- The names that an index may have: up to two hundred lower-case letters, digits,
underscores, points, plus and minus signs, the first one a letter or a digit. -/
def isValidName (name : String) : Bool :=
  match name.toList with
  | [] => false
  | c :: cs => isNameStart c && cs.all isNameRest && cs.length ≤ 199

/-- How the names of all tables of indices start. -/
def tablePrefix : String := "sift_idx_"

/-- The table of an index. -/
def tableName (index : String) : Except StoreError String :=
  if isValidName index then .ok (tablePrefix ++ index) else .error (.invalidIndexName index)

end Index

/-- An index and the table that holds it. -/
structure Target where
  /-- The index. -/
  index : String
  /-- Its table. -/
  table : String
  deriving DecidableEq, Repr

end DocSearch
