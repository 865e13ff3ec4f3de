import DocSearch.Mapping
import DocSearch.Request

/-!
# Failures of a search

A store fails on the data or on its own account; a search fails because of the
request, of the mappings, of a store, or because it was cancelled.

## Main definitions

* `StoreError` — failures of a store.
* `ExecutionError` — failures of a search, with `kind`, `message` and
  `isClientError`.
-/

namespace DocSearch

/-- A failure while a statement is evaluated. -/
inductive EvaluationError where
  /-- A text is no number. -/
  | notNumeric (text : String)
  /-- Bytes cannot be read as a number. -/
  | numericOfBytes
  /-- A text is no timestamp. -/
  | notTimestamp (text : String)
  /-- A value that is neither a text nor an integer is no timestamp. -/
  | timestampOfOther
  /-- There is no such unit to truncate to. -/
  | unknownUnit (unit : String)
  /-- A unit is no text. -/
  | unitNotText (kind : String)
  /-- An instant or the start of its period is not supported. -/
  | outOfRange (millis : Int64)
  /-- Only milliseconds can be truncated. -/
  | truncateOfOther
  /-- Bytes cannot be written as text. -/
  | textOfBytes
  /-- A path to a member cannot be read. -/
  | badPath (path : String)
  /-- A pattern of `LIKE` is too long. -/
  | patternTooLong
  /-- A sum of integers leaves the range of 64 bits. -/
  | integerOverflow
  /-- A table is not there. -/
  | noSuchTable (name : String)
  /-- A table is there already. -/
  | tableExists (name : String)
  /-- An expression of a statement is nested too deeply. -/
  | tooDeep
  /-- A statement binds too many values; `offset` is the place of the first that is too
  many. -/
  | tooManyValues (sql : String) (offset : Nat)
  /-- A statement reads too many tables. -/
  | tooManyTables
  /-- A statement orders its rows by too many expressions. -/
  | tooManyOrderTerms
  /-- A statement is none that a search issues. -/
  | notUnderstood
  deriving DecidableEq, Repr

/-- The wording of the failure of a scalar function.  Wordings end at a NUL for the
database, so one that holds a NUL is replaced by a general one. -/
def functionMessage (message : String) : String :=
  if message.toList.contains '\x00' then "constraint failed" else message

/-- The wording of a cause. -/
def EvaluationError.message : EvaluationError → String
  | notNumeric text =>
    functionMessage ("invalid input syntax for type numeric: \"" ++ text ++ "\"")
  | numericOfBytes => "cannot cast a blob to numeric"
  | notTimestamp text =>
    functionMessage ("invalid input syntax for type timestamp: \"" ++ text ++ "\"")
  | timestampOfOther => "timestamp must be a string"
  | unknownUnit unit => functionMessage ("unknown date_trunc unit [" ++ unit ++ "]")
  | unitNotText kind => "Invalid function parameter type " ++ kind ++ " at index 0"
  | outOfRange millis => "timestamp out of range: " ++ toString millis.toInt
  | truncateOfOther => "date_trunc expects epoch milliseconds"
  | textOfBytes => "cannot render a blob as text"
  | badPath path => "bad JSON path: " ++ Sql.quoteLiteral path
  | patternTooLong => "LIKE or GLOB pattern too complex"
  | integerOverflow => "integer overflow"
  | noSuchTable name => "no such table: " ++ name
  | tableExists name => "table " ++ Sql.quoteIdent name ++ " already exists"
  | tooDeep => "Expression tree is too large (maximum depth 1000)"
  | tooManyValues sql offset =>
    "too many SQL variables in " ++ sql ++ " at offset " ++ toString offset
  | tooManyTables => "too many terms in compound SELECT"
  | tooManyOrderTerms => "too many terms in ORDER BY clause"
  | notUnderstood => "not an error"

/-- A failure of a store. -/
inductive StoreError where
  /-- A statement could not be evaluated. -/
  | evaluation (cause : EvaluationError)
  /-- A document that was read back is no JSON. -/
  | invalidDocument
  /-- An index cannot have this name. -/
  | invalidIndexName (name : String)
  /-- The connection was given up in the middle of another request. -/
  | poisoned
  deriving DecidableEq, Repr

/-- The wording of a failure. -/
def StoreError.message : StoreError → String
  | evaluation cause => "sqlite: " ++ cause.message
  | invalidDocument => "invalid JSON document"
  | invalidIndexName name =>
    "invalid index name [" ++ name
      ++ "]: must be lowercase alphanumerics, '_', '-', '.', or '+'"
  | poisoned => "connection lock poisoned"

/-- A failure of a search. -/
inductive ExecutionError where
  /-- The request cannot be compiled. -/
  | search (cause : SearchError)
  /-- A histogram is asked for over a field that has no mapping. -/
  | noSuchFieldMapping (field : String)
  /-- A histogram is asked for over a field that holds no instants. -/
  | unsupportedFieldType (field : String) (type : FieldType)
  /-- An index is not there. -/
  | noSuchIndex (index : String)
  /-- The store failed on an aggregation. -/
  | aggregation (cause : StoreError)
  /-- The store failed on the hits. -/
  | hits (cause : StoreError)
  /-- The search was cancelled. -/
  | cancelled
  /-- The search took too long. -/
  | timedOut
  /-- The store failed on anything else. -/
  | store (cause : StoreError)
  deriving BEq, Repr

namespace ExecutionError

/-- The wording of a failure. -/
def message : ExecutionError → String
  | search cause => cause.message
  | noSuchFieldMapping field => "no mapping found for field [" ++ field ++ "]"
  | unsupportedFieldType field type =>
    "field [" ++ field ++ "] of type [" ++ type.name ++ "] cannot be used in a date_histogram"
  | noSuchIndex index => "no such index [" ++ index ++ "]"
  | aggregation cause => "aggregation execution failed: " ++ cause.message
  | hits cause => "failed to fetch hits: " ++ cause.message
  | cancelled => "search cancelled"
  | timedOut => "search timed out"
  | store cause => cause.message

/-- The class of a failure. -/
def kind : ExecutionError → String
  | search cause => cause.kind
  | noSuchFieldMapping _ | unsupportedFieldType _ _ => "illegal_argument_exception"
  | noSuchIndex _ => "index_not_found_exception"
  | aggregation _ => "aggregation_execution_exception"
  | hits _ | store _ => "search_phase_execution_exception"
  | cancelled => "task_cancelled_exception"
  | timedOut => "search_timeout_exception"

/-- Whether the request itself is at fault. -/
def isClientError : ExecutionError → Bool
  | search _ | noSuchFieldMapping _ | unsupportedFieldType _ _ => true
  | _ => false

end ExecutionError

end DocSearch
