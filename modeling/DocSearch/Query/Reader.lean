import DocSearch.Query.Error
import DocSearch.Query.Predicate
import DocSearch.Decimal.Numeral

/-!
# Reading a query

A query is an object with one member, which names its kind and holds its body:

```text
{"bool": {"must": [{"match": {"title": "sailing"}}], "filter": {"term": {"lang": "en"}}}}
```

The members of a body are read in their order, and the first thing that is wrong
is reported; what is missing is reported after all of them.

## Main definitions

* `Predicate.ofJson` — the predicate of a query.
-/

namespace DocSearch

namespace Query

/-- What reading a query gives. -/
abbrev Reading (α : Type) := Except QueryError α

/-! ### Parameters -/

/-- The members of a body. -/
def members (kind : String) : Json → Reading (List (String × Json))
  | .obj ms => .ok ms
  | _ => .error (.bodyNotAnObject kind)

/-- The number of a parameter as a double. -/
def number (kind parameter : String) : Json → Reading Float
  | .num (.int n) => .ok (Float.ofInt n)
  | .num (.real x) => .ok x
  | _ => .error (.notANumber kind parameter)

/-- A value to compare with. -/
def scalar (kind : String) (v : Json) : Reading Scalar :=
  match Scalar.ofJson? v with
  | some s => .ok s
  | none => .error (.valueNotAScalar kind)

/-- A scalar parameter as text. -/
def scalarText (kind parameter : String) (v : Json) : Reading String :=
  match Scalar.ofJson? v with
  | some s => .ok s.spelling
  | none => .error (.notAScalar kind parameter)

/-- A parameter that is a list of scalars, or one scalar. -/
def scalarTexts (kind parameter : String) : Json → Reading (List String)
  | .arr items => items.mapM (scalarText kind parameter)
  | v => (scalarText kind parameter v).map ([·])

/-- The name of a field. -/
def fieldName (name : String) : Reading String :=
  match Field.checkName name with
  | .ok _ => .ok name
  | .error e => .error (.fieldName e)

/-- The only member of a body: a field and what is asked of it. -/
def singleField (kind : String) (body : Json) : Reading (String × Json) := do
  match ← members kind body with
  | [] => .error (.noField kind)
  | [(field, spec)] => return (← fieldName field, spec)
  | _ => .error (.severalFields kind)

/-- A value that has to be there. -/
def require {α : Type} (kind parameter : String) : Option α → Reading α
  | some a => .ok a
  | none => .error (.missing kind parameter)

/-! ### Texts -/

/-- How words are combined, in any case of letters. -/
def operator (kind : String) (v : Json) : Reading Operator :=
  match v.string?.map Text.asciiLower with
  | some "and" => .ok .and
  | some "or" => .ok .or
  | _ => .error (.unknownOperator kind v)

/-- What a text without words finds, in any case of letters. -/
def zeroTerms (kind : String) (v : Json) : Reading ZeroTerms :=
  match v.string?.map Text.asciiLower with
  | some "none" => .ok .none
  | some "all" => .ok .all
  | _ => .error (.unknownZeroTerms kind v)

/-- The modes of a query over one field. -/
def mode (kind : String) (v : Json) : Reading MatchMode :=
  match v.string? with
  | some "boolean" => .ok .words
  | some "phrase" => .ok .phrase
  | some "phrase_prefix" => .ok .phrasePrefix
  | _ => .error (.unknownMode kind v)

/-- The modes of a query over several fields. -/
def multiFieldMode (kind : String) (v : Json) : Reading MatchMode :=
  match v.string? with
  | some "best_fields" | some "most_fields" | some "cross_fields" => .ok .words
  | some "phrase" => .ok .phrase
  | some "phrase_prefix" => .ok .phrasePrefix
  | _ => .error (.unknownMode kind v)

/-- The parameters of a text query, as far as they are read. -/
structure TextParameters where
  /-- The text. -/
  text : Option String := none
  /-- How its words are combined. -/
  operator : Operator := .or
  /-- What it finds if it has no words. -/
  zeroTerms : ZeroTerms := .none
  /-- What of it is looked for. -/
  mode : MatchMode := .words
  /-- The weight. -/
  boost : Option Float := none
  /-- The fields, for a query over several. -/
  fields : List BoostedField := []

/-- The text query of parameters that are read to the end. -/
def TextParameters.finish (p : TextParameters) (kind : String) : Reading TextQuery := do
  return ⟨← require kind "query" p.text, p.operator, p.zeroTerms, p.mode⟩

/-- Read a parameter of a query over one field; `fixed` says that the kind of the
query settles the mode. -/
def textParameter (kind : String) (fixed : Bool) (p : TextParameters) :
    String × Json → Reading TextParameters
  | ("query", v) => return { p with text := some (← scalarText kind "query" v) }
  | ("operator", v) => return { p with operator := ← operator kind v }
  | ("zero_terms_query", v) => return { p with zeroTerms := ← zeroTerms kind v }
  | ("boost", v) => return { p with boost := some (← number kind "boost" v) }
  | ("analyzer", _) => .ok p
  | ("max_expansions", _) => .ok p
  | (key, v) =>
    if key = "type" ∧ fixed = false then return { p with mode := ← mode kind v }
    else .error (.unknownParameter kind key)

/-- A text in one field. -/
def fullText (kind : String) (fixedMode : Option MatchMode) (body : Json) :
    Reading Predicate := do
  let (field, spec) ← singleField kind body
  let start : TextParameters := { mode := fixedMode.getD .words }
  let p ← match spec with
    | .obj params => params.foldlM (textParameter kind fixedMode.isSome) start
    | v => return .fullText field (← { start with text := some (← scalarText kind "query" v) }.finish kind) none
  return .fullText field (← p.finish kind) p.boost

/-- Split a text at its last caret. -/
def splitBoost (raw : String) : Option (String × String) :=
  let reversed := raw.toList.reverse
  match reversed.dropWhile (· ≠ '^') with
  | [] => none
  | _ :: name =>
    some (String.ofList name.reverse, String.ofList (reversed.takeWhile (· ≠ '^')).reverse)

/-- A field with a weight behind a caret, such as `title^2.5`. -/
def boostedField (raw : String) : Reading BoostedField :=
  match splitBoost raw with
  | none => return ⟨← fieldName raw, none⟩
  | some (name, boost) =>
    match readFloat boost with
    | none => .error (.invalidBoost raw)
    | some x => return ⟨← fieldName name, some x⟩

/-- An item of the list of fields. -/
def fieldItem (v : Json) : Reading BoostedField :=
  match v.string? with
  | some raw => boostedField raw
  | none => .error .fieldNotAString

/-- Read a parameter of a query over several fields. -/
def multiFieldParameter (p : TextParameters) : String × Json → Reading TextParameters
  | ("query", v) => return { p with text := some (← scalarText "multi_match" "query" v) }
  | ("fields", .arr items) => return { p with fields := p.fields ++ (← items.mapM fieldItem) }
  | ("fields", _) => .error .fieldsNotAnArray
  | ("type", v) => return { p with mode := ← multiFieldMode "multi_match" v }
  | ("operator", v) => return { p with operator := ← operator "multi_match" v }
  | ("zero_terms_query", v) => return { p with zeroTerms := ← zeroTerms "multi_match" v }
  | ("boost", v) => do
    let _ ← number "multi_match" "boost" v
    return p
  | ("analyzer", _) => .ok p
  | ("tie_breaker", _) => .ok p
  | (key, _) => .error (.unknownParameter "multi_match" key)

/-- A text in several fields. -/
def multiField (body : Json) : Reading Predicate := do
  let p ← (← members "multi_match" body).foldlM multiFieldParameter {}
  let query ← p.finish "multi_match"
  if p.fields.isEmpty then .error .noFields else return .multiField p.fields query

/-! ### Comparisons -/

/-- A value and a weight, as far as they are read. -/
structure ValueParameters (α : Type) where
  /-- The value. -/
  value : Option α := none
  /-- The weight. -/
  boost : Option Float := none

/-- Read the parameters of a query for a value with `readValue`. -/
def valueParameter {α : Type} (kind : String) (isValue : String → Bool)
    (readValue : String → Json → Reading α) (p : ValueParameters α) : String × Json → Reading (ValueParameters α)
  | (key, v) => do
    if isValue key then return { p with value := some (← readValue key v) }
    else if key = "boost" then return { p with boost := some (← number kind key v) }
    else .error (.unknownParameter kind key)

/-- A field that equals a value. -/
def term (body : Json) : Reading Predicate := do
  let (field, spec) ← singleField "term" body
  match spec with
  | .obj params =>
    let p ← params.foldlM (valueParameter "term" (· = "value") fun _ => scalar "term") {}
    return .term field (← require "term" "value" p.value) p.boost
  | v => return .term field (← scalar "term" v) none

/-- A type. -/
def docType (body : Json) : Reading Predicate := do
  let p ← (← members "type" body).foldlM
    (valueParameter "type" (· = "value") (scalarText "type")) {}
  return .docType (← require "type" "value" p.value) p.boost

/-- A field that starts with a text. -/
def startsWith (body : Json) : Reading Predicate := do
  let (field, spec) ← singleField "prefix" body
  match spec with
  | .obj params =>
    let isValue (key : String) : Bool := key = "value" || key = "prefix"
    let p ← params.foldlM (valueParameter "prefix" isValue (scalarText "prefix")) {}
    return .startsWith field (← require "prefix" "value" p.value)
  | v => return .startsWith field (← scalarText "prefix" "value" v)

/-- A field that has a value. -/
def present (body : Json) : Reading Predicate := do
  let readField (_ : String) (v : Json) : Reading String :=
    match v.string? with
    | some name => fieldName name
    | none => .error .presentNotAString
  let p ← (← members "exists" body).foldlM (valueParameter "exists" (· = "field") readField) {}
  return .present (← require "exists" "field" p.value)

/-- Read a member of a query for one of several values. -/
def termsMember (target : Option (String × List Scalar)) :
    String × Json → Reading (Option (String × List Scalar))
  | (key, v) => do
    if key = "boost" then
      let _ ← number "terms" key v
      return target
    else if target.isSome then .error .severalTermsFields
    else
      match v with
      | .arr items =>
        let values ← items.mapM (scalar "terms")
        return some (← fieldName key, values)
      | _ => .error (.termsNotAnArray key)

/-- A field that equals one of several values. -/
def terms (body : Json) : Reading Predicate := do
  match ← (← members "terms" body).foldlM termsMember none with
  | some (field, values) => return .terms field values
  | none => .error .noTermsField

/-- Read a parameter of a query for identifiers. -/
def idsParameter (p : List String × Option (List String)) :
    String × Json → Reading (List String × Option (List String))
  | (key, v) => do
    if key = "type" ∨ key = "types" then return (← scalarTexts "ids" key v, p.2)
    else if key = "values" then return (p.1, some (← scalarTexts "ids" key v))
    else if key = "boost" then
      let _ ← number "ids" key v
      return p
    else .error (.unknownParameter "ids" key)

/-- One of several identifiers. -/
def ids (body : Json) : Reading Predicate := do
  let (types, values) ← (← members "ids" body).foldlM idsParameter ([], none)
  return .ids types (← require "ids" "values" values)

/-- Read a bound of a range. -/
def bound (bounds : List (RangeOp × Scalar)) :
    String × Json → Reading (List (RangeOp × Scalar))
  | (key, v) => do
    match RangeOp.ofKey? key with
    | some op => return bounds ++ [(op, ← scalar "range" v)]
    | none =>
      if key = "boost" then
        let _ ← number "range" key v
        return bounds
      else .error (.unknownParameter "range" key)

/-- A field within bounds. -/
def range (body : Json) : Reading Predicate := do
  let (field, spec) ← singleField "range" body
  let bounds ← (← members "range" spec).foldlM bound []
  if bounds.isEmpty then .error (.noBound field) else return .range field bounds

/-- Every document. -/
def matchAll (body : Json) : Reading Predicate := do
  let noValue (key : String) (_ : Json) : Reading Unit := .error (.unknownParameter "match_all" key)
  let _ ← (← members "match_all" body).foldlM
    (valueParameter "match_all" (fun _ => false) noValue) {}
  return .matchAll

/-- A query that holds no other queries. -/
def simple (kind : String) (body : Json) : Reading Predicate :=
  match kind with
  | "match_all" => matchAll body
  | "match" => fullText kind none body
  | "match_phrase" => fullText kind (some .phrase) body
  | "match_phrase_prefix" => fullText kind (some .phrasePrefix) body
  | "multi_match" => multiField body
  | "term" => term body
  | "terms" => terms body
  | "type" => docType body
  | "ids" => ids body
  | "range" => range body
  | "exists" => present body
  | "prefix" => startsWith body
  | _ => .error (.unknownKind kind)

/-- How many clauses are enough, as it was written: a string, or an integer of 64
bits with sign. -/
def threshold : Json → Reading String
  | .str s => .ok s
  | .num (.int n) =>
    if (int64? n).isSome then .ok (toString n) else .error .thresholdNotReadable
  | _ => .error .thresholdNotReadable

end Query

open Query

mutual

/-- The predicate of a query. -/
def Predicate.ofJson : Json → Except QueryError Predicate
  | .obj [] => .error .noKind
  | .obj [(kind, body)] =>
    if kind = "bool" then
      match body with
      | .obj params => (boolClauses {} params).map .bool
      | _ => .error (.bodyNotAnObject kind)
    else simple kind body
  | .obj ((first, _) :: (second, _) :: _) => .error (.severalKinds first second)
  | _ => .error .notAnObject

/-- The predicates of the items of an array. -/
def Predicate.ofItems : List Json → Except QueryError (List Predicate)
  | [] => .ok []
  | v :: rest => do return (← Predicate.ofJson v) :: (← Predicate.ofItems rest)

/-- The predicates of an array of queries. -/
def Predicate.ofArray : Json → Except QueryError (List Predicate)
  | .arr items => Predicate.ofItems items
  | _ => .error .clausesNotQueries

/-- The groups of a boolean query, those in `groups` being read already.  A query
that stands alone is a group of one. -/
def boolClauses (groups : BoolClauses Predicate) :
    List (String × Json) → Except QueryError (BoolClauses Predicate)
  | [] => .ok groups
  | (key, v) :: rest => do
    let clauses (_ : Unit) : Except QueryError (List Predicate) :=
      if v.isObject then (Predicate.ofJson v).map ([·]) else Predicate.ofArray v
    let groups ←
      if key = "must" then (clauses ()).map ({ groups with must := · })
      else if key = "filter" then (clauses ()).map ({ groups with filter := · })
      else if key = "must_not" then (clauses ()).map ({ groups with mustNot := · })
      else if key = "should" then (clauses ()).map ({ groups with should := · })
      else if key = "minimum_should_match" then
        (threshold v).map ({ groups with minimumShouldMatch := some · })
      else if key = "boost" then (number "bool" key v).map fun _ => groups
      else .error (.unknownParameter "bool" key)
    boolClauses groups rest

end

end DocSearch
