import DocSearch.Field
import DocSearch.Json.Printer
import DocSearch.Sql.Dialect

/-!
# Sorting

The `sort` of a request is one entry or an array of entries:

```text
"ts"                              ascending
{"ts": "desc"}
{"ts": {"order": "desc"}}
```

Hits are not scored, so entries for `_score` are accepted and dropped.

## Main definitions

* `SortClause` — a field and a direction.
* `SortClause.ofEntry` — the clause of one entry.
* `SortClause.ofJson` — the clauses of a `sort`, strict or lenient.
* `SortClause.orderBy` — the clause `ORDER BY` of a statement.
-/

namespace DocSearch

/-- A field to sort by. -/
structure SortClause where
  /-- The name of the field. -/
  field : String
  /-- Whether small values come first. -/
  ascending : Bool
  deriving DecidableEq, Repr

/-- Why an entry is refused. -/
inductive SortError where
  /-- The entry has another shape. -/
  | unsupportedEntry (entry : Json)
  /-- What is asked of the field has another shape. -/
  | unsupportedSpec (field : String) (spec : Json)
  /-- The direction is not known. -/
  | unknownOrder (order : String)
  /-- A field cannot have this name. -/
  | fieldName (cause : FieldNameError)
  deriving BEq, Repr

/-- The wording of a cause. -/
def SortError.message : SortError → String
  | unsupportedEntry entry => "malformed sort: unsupported sort entry " ++ entry.print
  | unsupportedSpec field spec =>
    "malformed sort: unsupported sort spec for [" ++ field ++ "]: " ++ spec.print
  | unknownOrder order => "malformed sort: unknown sort order [" ++ order ++ "]"
  | fieldName cause => "malformed sort: " ++ cause.message

namespace SortClause

/-- Whether a direction is ascending; the case of letters does not count. -/
def readOrder (order : String) : Except SortError Bool :=
  let lower := Text.asciiLower order
  if lower = "asc" then .ok true
  else if lower = "desc" then .ok false
  else .error (.unknownOrder lower)

/-- The direction that is asked of a field: a string, or the member `order` of an
object.  Without one, scores sort down and everything else up. -/
def orderOf (field : String) : Json → Except SortError String
  | .str order => .ok order
  | .obj options =>
    .ok (((options.lookup "order").bind Json.string?).getD
      (if field = "_score" then "desc" else "asc"))
  | spec => .error (.unsupportedSpec field spec)

/-- The clause for a field, unless it is the score. -/
def forField (field : String) (ascending : Bool) : Except SortError (Option SortClause) :=
  if field = "_score" then .ok none
  else
    match Field.checkName field with
    | .ok _ => .ok (some ⟨field, ascending⟩)
    | .error e => .error (.fieldName e)

/-- The clause of an entry. -/
def ofEntry : Json → Except SortError (Option SortClause)
  | .str field => forField field true
  | .obj [(field, spec)] => do forField field (← readOrder (← orderOf field spec))
  | entry => .error (.unsupportedEntry entry)

/-- The entries of a `sort`. -/
def entries : Json → List Json
  | .arr items => items
  | entry => [entry]

/-- The clauses of a `sort`.  An entry that cannot be read is refused if `strict`
is set and skipped otherwise. -/
def ofJson (strict : Bool) (sort : Json) : Except SortError (List SortClause) :=
  if strict then ((entries sort).mapM ofEntry).map (·.filterMap id)
  else .ok ((entries sort).filterMap fun e => (ofEntry e).toOption.join)

/-- The clause `ORDER BY`; empty if there is nothing to sort by. -/
def orderBy (d : Dialect) (clauses : List SortClause) : String :=
  if clauses.isEmpty then ""
  else
    "ORDER BY " ++ Text.joinWith ", " (clauses.map fun c =>
      d.fieldValue c.field ++ (if c.ascending then " ASC" else " DESC"))

end SortClause

end DocSearch
