import DocSearch.Store.Demand

/-!
# Terms

Documents are stored in the order in which they came, and an index keeps them in the
order of type and identifier.  Of what a statement asks, only comparisons of the type
or the identifier with values can be looked up there.  A term is a demand seen in this
way: what it reads, and what can be looked up for it.  A clause is a list of terms that
all have to hold; a term that joins others by `OR` has a clause for each of them.

Some terms follow from others.  If all that is joined by `OR` fixes the same column to
some value, the column has one of several values.  A pattern with a literal start, or the presence of a
value, implies comparisons as well; they look like something that can be looked up,
but the index cannot serve them.

## Main definitions

* `KeyColumn`, `KeyUse` — the columns of the key and how they are compared.
* `Term`, `Clause` — terms and lists of them.
* `Demand.term`, `Clause.ofDemands` — the terms of demands and what follows from them.
-/

namespace DocSearch

open Sql

/-! ### Columns -/

/-- A column of the key. -/
inductive KeyColumn where
  /-- The type, which comes first. -/
  | docType
  /-- The identifier. -/
  | id
  deriving DecidableEq, Repr

namespace KeyColumn

/-- The field that shows a column. -/
def field : KeyColumn → String
  | docType => "_type"
  | id => "_id"

/-- The column that a field shows. -/
def ofField? (field : String) : Option KeyColumn :=
  if field = "_type" then some docType else if field = "_id" then some id else none

end KeyColumn

/-- How a column is compared. -/
inductive KeyUse where
  /-- It has a value. -/
  | equal
  /-- It has one of several values. -/
  | among (count : Nat)
  /-- It is greater than a value, or not less. -/
  | above
  /-- It is less than a value, or not greater. -/
  | below
  deriving DecidableEq, Repr

namespace Test

/-- How a test of a key field can be looked up. -/
def keyUse? (t : Test) : Option (KeyColumn × KeyUse) := do
  let column ← KeyColumn.ofField? t.field
  match t with
  | equals _ _ | among _ [_] => some (column, .equal)
  | among _ values => some (column, .among values.length)
  | compareText _ .gt _ | compareText _ .gte _ => some (column, .above)
  | compareText _ .lt _ | compareText _ .lte _ => some (column, .below)
  | _ => none

/-- The value of a test for equality. -/
def soleValue? : Test → Option Value
  | equals _ v | among _ [v] => some v
  | _ => none

/-- Whether a character is unreadable for patterns. -/
def isReplacement (c : Char) : Bool := c == '\uFFFD' || c == '\uFFFE' || c == '\uFFFF'

/-- Whether a pattern starts with a character that stands for itself. -/
def startsLiterally (pattern : String) : Bool :=
  match pattern.toList with
  | '\\' :: c :: _ => c != '\x00' && !isReplacement c
  | ['\\'] => false
  | c :: _ => c != '%' && c != '_' && c != '\x00' && !isReplacement c
  | [] => false

/-- The columns of the comparisons that a test implies. -/
def implied : Test → List KeyColumn
  | like field pattern =>
    if startsLiterally pattern then (List.replicate 2 (KeyColumn.ofField? field)).filterMap id
    else []
  | present field => (KeyColumn.ofField? field).toList
  | _ => []

end Test

/-! ### Terms -/

/-- A demand as it is seen by whoever looks for rows. -/
inductive Term where
  /-- A comparison of a column, and where it was found if it follows from another
  term. -/
  | key (fields : List String) (origin : Option Nat) (column : KeyColumn) (use : KeyUse)
    (test : Test)
  /-- An implied comparison of a column, which the index cannot serve. -/
  | hint (column : KeyColumn)
  /-- Several clauses joined by `OR`. -/
  | either (fields : List String) (branches : List (List Term))
  /-- Anything else, and the columns of the comparisons that it implies. -/
  | other (fields : List String) (implied : List KeyColumn)
  deriving Repr

/-- Terms all of which have to hold. -/
abbrev Clause := List Term

namespace Term

/-- The fields of the row that a term reads. -/
def fields : Term → List String
  | key fields _ _ _ _ => fields
  | hint column => [column.field]
  | either fields _ => fields
  | other fields _ => fields

/-- Whether a term is one of the demands, and does not follow from another term. -/
def isAsked : Term → Bool
  | key _ origin _ _ _ => origin.isNone
  | hint _ => false
  | either _ _ => true
  | other _ _ => true

/-- Whether a term compares a column with a value for equality. -/
def isEquality : Term → Bool
  | key _ _ _ .equal _ => true
  | _ => false

/-- Whether a term compares a column of the key. -/
def comparesKey : Term → Bool
  | key _ _ _ _ _ | hint _ => true
  | _ => false

/-- Whether the index can do something for a term. -/
def isUseful : Term → Bool
  | key _ _ _ _ _ | either _ _ => true
  | _ => false

/-- The column and the value of a clause that asks for nothing but a value. -/
def soleEquality? : Clause → Option (KeyColumn × Value)
  | [key _ none column .equal test] => test.soleValue?.map (column, ·)
  | _ => none

/-- What follows from clauses joined by `OR` each of which asks for a value of one
column. -/
def ofEqualities (origin : Nat) (branches : List Clause) : Option Term := do
  let equalities ← branches.mapM soleEquality?
  let (column, _) ← equalities.head?
  if equalities.all (·.1 == column) then
    some (.key [column.field] (some origin) column (.among equalities.length)
      (.among column.field (equalities.map (·.2))))
  else none

/-- What follows from a term that stands at a place of a clause. -/
def consequences (place : Nat) : Term → List Term
  | other _ implied => implied.map hint
  | either _ branches => (ofEqualities place branches).toList
  | _ => []

end Term

namespace Clause

/-- A clause together with what follows from its terms; what follows from the last one
comes first. -/
def close (c : Clause) : Clause :=
  c ++ (c.zipIdx.reverse.flatMap fun (t, place) => t.consequences place)

/-- A clause that consists of one term, with what follows from it unless it can be
looked up itself. -/
def ofTerm : Term → Clause
  | .other fields implied => close [.other fields implied]
  | t => [t]

/-- The column of a clause that asks for nothing but the presence of a value. -/
def presence? : Clause → Option KeyColumn
  | [.other _ [column], .hint _] => some column
  | _ => none

/-- The clauses that are joined by `OR`.  The presence of a value appears once more as
the comparison that it implies. -/
def branches (cs : List Clause) : List Clause :=
  cs ++ cs.reverse.filterMap fun c => (presence? c).map fun column => [.hint column]

end Clause

/-! ### The terms of conditions -/

/-- Key fields that are given, and whether they can be looked up nevertheless. -/
structure Givens where
  /-- The fields. -/
  keys : KeyValues
  /-- Whether comparisons of them cannot be looked up. -/
  settled : Bool

namespace Givens

/-- Whether a field is given. -/
def has (g : Givens) (field : String) : Bool := (g.keys.lookup field).isSome

/-- The fields among some that are not given. -/
def rest (g : Givens) (fields : List String) : List String := fields.filter (!g.has ·)

end Givens

/-- The term of a test. -/
def Test.term (g : Givens) (t : Test) : Term :=
  if g.settled && g.has t.field then .other [] []
  else
    match t.keyUse? with
    | some (column, use) => .key (g.rest [t.field]) none column use t
    | none => .other (g.rest [t.field]) t.implied

namespace Condition

mutual

/-- The terms that a condition joins by `AND`. -/
def terms (g : Givens) : Condition → List Term
  | .test t => [t.term g]
  | .never => [.other [] []]
  | .not c => [.other (g.rest c.fields) []]
  | .group c => terms g c
  | .all parts => termsOfList g parts
  | .any [c] => terms g c
  | .any parts =>
    [.either (g.rest (fieldsOfList parts)) (Clause.branches (clausesOfList g parts))]

/-- The terms that several conditions join by `AND`. -/
def termsOfList (g : Givens) : List Condition → List Term
  | [] => []
  | c :: cs => terms g c ++ termsOfList g cs

/-- The clauses that a condition joins by `OR`. -/
def clauses (g : Givens) : Condition → List Clause
  | .test t => [Clause.ofTerm (t.term g)]
  | .never => [[.other [] []]]
  | .not c => [[.other (g.rest c.fields) []]]
  | .group c => clauses g c
  | .any parts => clausesOfList g parts
  | .all [c] => clauses g c
  | .all parts => [Clause.close (termsOfList g parts)]

/-- The clauses that several conditions join by `OR`. -/
def clausesOfList (g : Givens) : List Condition → List Clause
  | [] => []
  | c :: cs => clauses g c ++ clausesOfList g cs

end

end Condition

/-- The term of a demand. -/
def Demand.term (demand : Demand) : Term :=
  match demand.check with
  | .keyed _ => .other demand.fields []
  | .meets c =>
    match c.terms ⟨demand.given, demand.settled⟩ with
    | [t] => t
    | _ => .other demand.fields []

/-- The clause of demands, with what follows from them. -/
def Clause.ofDemands (demands : List Demand) : Clause := Clause.close (demands.map Demand.term)

end DocSearch
