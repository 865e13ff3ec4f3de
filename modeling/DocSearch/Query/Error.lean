import DocSearch.Field
import DocSearch.Json.Printer

/-!
# What can be wrong with a query

## Main definitions

* `QueryError` — the causes.
* `QueryError.kind`, `QueryError.message` — the class of a cause and its wording.
-/

namespace DocSearch

/-- Why a query is refused. -/
inductive QueryError where
  /-- The query is no object. -/
  | notAnObject
  /-- The query has no member that names its kind. -/
  | noKind
  /-- The query has more than one member. -/
  | severalKinds (first second : String)
  /-- There is no such kind of query. -/
  | unknownKind (kind : String)
  /-- The body of a query is no object. -/
  | bodyNotAnObject (kind : String)
  /-- A parameter is not known. -/
  | unknownParameter (kind parameter : String)
  /-- A parameter is no number. -/
  | notANumber (kind parameter : String)
  /-- A parameter is no string, number or truth value. -/
  | notAScalar (kind parameter : String)
  /-- A value to compare with is no string, number or truth value. -/
  | valueNotAScalar (kind : String)
  /-- A parameter is missing. -/
  | missing (kind parameter : String)
  /-- No field is named. -/
  | noField (kind : String)
  /-- More than one field is named. -/
  | severalFields (kind : String)
  /-- A field cannot have this name. -/
  | fieldName (cause : FieldNameError)
  /-- A group of a boolean query is neither a query nor an array of queries. -/
  | clausesNotQueries
  /-- The threshold of a boolean query is neither an integer nor a string. -/
  | thresholdNotReadable
  /-- The operator of a text query is not known. -/
  | unknownOperator (kind : String) (value : Json)
  /-- The policy of a text query for no words is not known. -/
  | unknownZeroTerms (kind : String) (value : Json)
  /-- The mode of a text query is not known. -/
  | unknownMode (kind : String) (value : Json)
  /-- The fields of a query over several fields are no array. -/
  | fieldsNotAnArray
  /-- One of the fields of such a query is no string. -/
  | fieldNotAString
  /-- The weight behind the name of a field is no number. -/
  | invalidBoost (field : String)
  /-- A query over several fields names none. -/
  | noFields
  /-- The values of a query for one of several values are no array. -/
  | termsNotAnArray (field : String)
  /-- A query for one of several values names no field. -/
  | noTermsField
  /-- A query for one of several values names more than one field. -/
  | severalTermsFields
  /-- A range has no bound. -/
  | noBound (field : String)
  /-- The field that has to be present is no string. -/
  | presentNotAString
  /-- A threshold cannot be read. -/
  | invalidThreshold (raw : String)
  /-- A threshold comes to something other than one. -/
  | unsupportedThreshold (n : Int64)
  deriving BEq, Repr

namespace QueryError

/-- The class of a cause. -/
def kind : QueryError → String
  | unsupportedThreshold _ => "query_shard_exception"
  | _ => "parsing_exception"

/-- What is wrong with the shape of a query, if that is the cause. -/
private def malformation : QueryError → String
  | notAnObject => "query must be an object"
  | noKind => "query object must not be empty"
  | severalKinds first second =>
    "[" ++ first ++ "] malformed query, expected [END_OBJECT] but found [" ++ second ++ "]"
  | bodyNotAnObject kind => "[" ++ kind ++ "] query malformed, expected an object"
  | unknownParameter kind parameter =>
    "[" ++ kind ++ "] query does not support [" ++ parameter ++ "]"
  | notANumber kind parameter => "[" ++ kind ++ "] [" ++ parameter ++ "] must be a number"
  | notAScalar kind parameter => "[" ++ kind ++ "] [" ++ parameter ++ "] must be a scalar"
  | valueNotAScalar kind => "[" ++ kind ++ "] values must be strings, numbers, or booleans"
  | missing kind parameter => "[" ++ kind ++ "] requires [" ++ parameter ++ "]"
  | noField kind => "[" ++ kind ++ "] query requires a field"
  | severalFields kind => "[" ++ kind ++ "] query doesn't support multiple fields"
  | fieldName cause => cause.message
  | clausesNotQueries => "bool clauses must be a query object or an array"
  | thresholdNotReadable => "[minimum_should_match] must be an integer or a string"
  | unknownOperator kind value => "[" ++ kind ++ "] unknown operator " ++ value.print
  | unknownZeroTerms kind value => "[" ++ kind ++ "] unknown zero_terms_query " ++ value.print
  | unknownMode kind value => "[" ++ kind ++ "] unknown type " ++ value.print
  | fieldsNotAnArray => "[multi_match] [fields] must be an array"
  | fieldNotAString => "[multi_match] field names must be strings"
  | invalidBoost field => "invalid boost in field [" ++ field ++ "]"
  | noFields => "[multi_match] requires at least one field"
  | termsNotAnArray field => "[terms] values for [" ++ field ++ "] must be an array"
  | noTermsField => "[terms] requires a field"
  | severalTermsFields => "[terms] query does not support multiple fields"
  | noBound field => "[range] on [" ++ field ++ "] requires at least one bound"
  | presentNotAString => "[exists] [field] must be a string"
  | invalidThreshold raw => "invalid minimum_should_match [" ++ raw ++ "]"
  | unknownKind _ | unsupportedThreshold _ => ""

/-- The wording of a cause. -/
def message : QueryError → String
  | unknownKind kind => "no [query] registered for [" ++ kind ++ "]"
  | unsupportedThreshold n =>
    "minimum_should_match resolved to " ++ toString n.toInt
      ++ "; only a threshold of 1 is supported"
  | e => "malformed query: " ++ e.malformation

end QueryError

end DocSearch
