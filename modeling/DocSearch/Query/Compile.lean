import DocSearch.Query.Error
import DocSearch.Sql.Condition

/-!
# The condition of a predicate

Every leaf of a predicate becomes a test of a field, and the groups of a boolean
query become

```text
(must) AND (filter) AND NOT (must_not) AND (should)
```

where a group that restricts nothing is left out.  A member that restricts nothing
meets every document: under `must_not` it excludes all of them, and under `should`
it satisfies the group.

## Main definitions

* `requiredMatches` — how many clauses of `should` are enough.
* `Predicate.compile` — the condition of a predicate, if it restricts anything.
-/

namespace DocSearch

open Sql

/-! ### How many clauses are enough -/

/-- How many of `count` clauses are enough: one if nothing is said; a number, from
the end if it is negative; or a percentage, from the end if it is negative, with
halves rounded up. -/
def requiredMatches (raw : Option String) (count : Nat) : Except QueryError Int64 :=
  match raw with
  | none => .ok 1
  | some raw =>
    let raw := Text.trim raw
    match raw.toList.reverse with
    | '%' :: reversed =>
      match readFloat (Text.trim (String.ofList reversed.reverse)) with
      | none => .error (.invalidThreshold raw)
      | some p =>
        let p := if p < 0.0 then p + 100.0 else p
        .ok (truncateFloat (count.toFloat * p / 100.0 + 0.5).floor)
    | _ =>
      match readInt64 raw with
      | none => .error (.invalidThreshold raw)
      | some n => .ok (if n < 0 then Int64.ofNat count + n else n)

/-! ### Leaves -/

/-- A scalar as the text it is compared by. -/
def Scalar.toValue (v : Scalar) : Value := .text v.spelling

/-- A number as a bound value. -/
def numberValue : Number → Value
  | .int n => (int64? n).elim (.real (Float.ofInt n)) .integer
  | .real x => .real x

/-- A bound of a range: a number bounds the field as a number, anything else as text. -/
def boundTest (field : String) : RangeOp × Scalar → Test
  | (op, .number n) => .compareNumber field op (numberValue n)
  | (op, v) => .compareText field op v.toValue

/-- Identifiers, in one of several types if any are given. -/
def compileIds (types values : List String) : Condition :=
  let among (field : String) (items : List String) : Condition :=
    .group (.test (.among field (items.map .text)))
  if values.isEmpty then .never
  else if types.isEmpty then .all [among "_id" values]
  else .all [among "_type" types, among "_id" values]

/-- The patterns that a text stands for. -/
def TextQuery.patterns (q : TextQuery) : List String :=
  match q.mode with
  | .words => (Text.words q.text).map fun w => "%" ++ escapeLike w ++ "%"
  | .phrase => if Text.isAllBlank q.text then [] else [escapeLike q.text]
  | .phrasePrefix => if Text.isAllBlank q.text then [] else [escapeLike q.text ++ "%"]

/-- Several conditions joined by `combine`, in parentheses; one condition stays alone. -/
def grouped (combine : List Condition → Condition) : List Condition → Condition
  | [c] => combine [c]
  | cs => .group (combine cs)

/-- Conditions joined as an operator says. -/
def Operator.combine : Operator → List Condition → Condition
  | .and => .all
  | .or => .any

/-- A text in some of several fields: each pattern in one of the fields.  Where there is
no field, one pattern restricts nothing, and of several nothing is left but the
parentheses; no request asks for that. -/
def TextQuery.compile (q : TextQuery) (fields : List String) : Option Condition :=
  if q.patterns.isEmpty then
    match q.zeroTerms with
    | .none => some .never
    | .all => none
  else if fields.isEmpty then
    if q.patterns.length = 1 then none else some (.group (.any []))
  else
    some <| grouped q.operator.combine <| q.patterns.map fun pattern =>
      grouped .any (fields.map fun field => .test (.like field pattern))

/-! ### Boolean queries -/

/-- The condition of the groups of a boolean query, given the conditions of their
members. -/
def groupConditions (groups : BoolClauses (Option Condition)) : Option Condition :=
  let required (members : List (Option Condition)) : Option Condition :=
    (Condition.all? members).map .group
  let excluded : Option Condition :=
    if groups.mustNot.isEmpty then none
    else if groups.mustNot.any (·.isNone) then some .never
    else (Condition.any? groups.mustNot).map .not
  let optional : Option Condition :=
    if groups.should.any (·.isNone) then none else (Condition.any? groups.should).map .group
  Condition.all? [required groups.must, required groups.filter, excluded, optional]

/-- Refuse a threshold other than one; without clauses it does not matter. -/
def checkThreshold (raw : Option String) (count : Nat) : Except QueryError Unit :=
  if count = 0 then .ok ()
  else do
    let n ← requiredMatches raw count
    if n = 1 then .ok () else .error (.unsupportedThreshold n)

mutual

/-- The condition of a predicate; there is none if it restricts nothing. -/
def Predicate.compile : Predicate → Except QueryError (Option Condition)
  | .matchAll => .ok none
  | .term field value _ => .ok (some (.test (.equals field value.toValue)))
  | .docType value _ => .ok (some (.test (.equals "_type" (.text value))))
  | .ids types values => .ok (some (compileIds types values))
  | .fullText field query _ => .ok (query.compile [field])
  | .multiField fields query => .ok (query.compile (fields.map (·.name)))
  | .bool ⟨must, filter, mustNot, should, minimumShouldMatch⟩ => do
    let must ← Predicate.compileList must
    let filter ← Predicate.compileList filter
    let mustNot ← Predicate.compileList mustNot
    checkThreshold minimumShouldMatch should.length
    let should ← Predicate.compileList should
    return groupConditions ⟨must, filter, mustNot, should, none⟩
  | .terms field values =>
    .ok (some (if values.isEmpty then .never else .test (.among field (values.map (·.toValue)))))
  | .range field bounds =>
    .ok (if bounds.isEmpty then none
      else some (.all (bounds.map fun b => .test (boundTest field b))))
  | .present field => .ok (some (.test (.present field)))
  | .startsWith field text => .ok (some (.test (.like field (escapeLike text ++ "%"))))

/-- The conditions of several predicates. -/
def Predicate.compileList : List Predicate → Except QueryError (List (Option Condition))
  | [] => .ok []
  | p :: ps => do return (← Predicate.compile p) :: (← Predicate.compileList ps)

end

end DocSearch
