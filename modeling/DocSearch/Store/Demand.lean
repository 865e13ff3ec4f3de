import DocSearch.Store.Document

/-!
# What is asked of a row

A statement asks several things of a row: the conditions that its own condition joins
by `AND`, and perhaps that the row lies in a bucket.  A condition that fixes the type
or the identifier to one value speaks for the whole statement: everything else is asked
as if the row had this value.  What reads no other field then has one answer for all
rows, which is known before any row is looked at.

## Main definitions

* `Condition.fields`, `Condition.conjuncts`, `Condition.disjuncts` — the shape of
  conditions.
* `Check` — what may be asked.
* `Demand` — a check with the key fields that are fixed, `Demand.ofChecks`.
* `Demand.allHold` — whether a row meets several demands.
-/

namespace DocSearch

open Sql

/-! ### The shape of conditions -/

/-- The field that a test reads. -/
def Test.field : Test → String
  | equals field _ | among field _ | like field _ | compareText field _ _
  | compareNumber field _ _ | present field => field

namespace Condition

mutual

/-- The fields that a condition reads. -/
def fields : Condition → List String
  | .test t => [t.field]
  | .never => []
  | .all parts => fieldsOfList parts
  | .any parts => fieldsOfList parts
  | .group c => fields c
  | .not c => fields c

/-- The fields that several conditions read. -/
def fieldsOfList : List Condition → List String
  | [] => []
  | c :: cs => fields c ++ fieldsOfList cs

end

mutual

/-- How many tests and combinations a condition has. -/
def size : Condition → Nat
  | .test _ => 1
  | .never => 1
  | .all parts => 1 + sizeOfList parts
  | .any parts => 1 + sizeOfList parts
  | .group c => 1 + size c
  | .not c => 1 + size c

/-- The size of several conditions. -/
def sizeOfList : List Condition → Nat
  | [] => 0
  | c :: cs => size c + sizeOfList cs

end

mutual

/-- The conditions that a condition joins by `AND`. -/
def conjuncts : Condition → List Condition
  | .all parts => conjunctsOfList parts
  | .any [c] => conjuncts c
  | .group c => conjuncts c
  | c => [c]

/-- The conditions that several conditions join by `AND`. -/
def conjunctsOfList : List Condition → List Condition
  | [] => []
  | c :: cs => conjuncts c ++ conjunctsOfList cs

end

mutual

/-- The conditions that a condition joins by `OR`. -/
def disjuncts : Condition → List Condition
  | .any parts => disjunctsOfList parts
  | .all [c] => disjuncts c
  | .group c => disjuncts c
  | c => [c]

/-- The conditions that several conditions join by `OR`. -/
def disjunctsOfList : List Condition → List Condition
  | [] => []
  | c :: cs => disjuncts c ++ disjunctsOfList cs

end

end Condition

/-! ### Keys -/

/-- The names of the fields that make the key. -/
def keyFields : List String := ["_type", "_id"]

/-- Whether a field is a type or an identifier. -/
def isKeyField (field : String) : Bool := keyFields.contains field

/-- Some key fields with their values. -/
abbrev KeyValues := List (String × String)

/-- A document with some key fields replaced. -/
def Document.withKeys (keys : KeyValues) (d : Document) : Document :=
  { d with docType := (keys.lookup "_type").getD d.docType, id := (keys.lookup "_id").getD d.id }

/-! ### Checks -/

/-- What may be asked of a row. -/
inductive Check where
  /-- It meets a condition. -/
  | meets (c : Condition)
  /-- It lies in a bucket. -/
  | keyed (k : BucketKey)
  deriving Repr

namespace Check

/-- The fields that a check reads. -/
def fields : Check → List String
  | meets c => c.fields
  | keyed k => [k.field]

/-- Whether a row passes a check. -/
def holds (d : Document) : Check → Except EvaluationError Bool
  | meets c => d.meets c
  | keyed k => return (← d.bucketKey k) != .null

/-- The key field that a check fixes to one value, and the value. -/
def fixed? : Check → Option (String × String)
  | meets (.test (.equals field (.text s))) => if isKeyField field then some (field, s) else none
  | meets (.test (.among field [.text s])) => if isKeyField field then some (field, s) else none
  | _ => none

end Check

/-- The values that checks fix key fields to; of several for one field, the last one
comes first. -/
def fixedKeys (checks : List Check) : KeyValues := (checks.filterMap Check.fixed?).reverse

/-! ### Demands -/

/-- A check that is made as if some key fields had other values. -/
structure Demand where
  /-- The check. -/
  check : Check
  /-- The key fields that are replaced. -/
  given : KeyValues := []
  /-- Whether comparisons of the fields that are replaced cannot be looked up any more. -/
  settled : Bool := false
  deriving Repr

namespace Demand

/-- The fields that are read of the row itself. -/
def fields (demand : Demand) : List String :=
  demand.check.fields.filter fun f => (demand.given.lookup f).isNone

/-- Whether a row meets a demand. -/
def holds (d : Document) (demand : Demand) : Except EvaluationError Bool :=
  demand.check.holds (d.withKeys demand.given)

/-- Whether a row meets several demands; none is made behind one that it does not
meet. -/
def allHold (d : Document) : List Demand → Except EvaluationError Bool
  | [] => .ok true
  | a :: as => do if ← a.holds d then allHold d as else return false

/-- Whether the answer is the same for all rows. -/
def isDecided (demand : Demand) : Bool := demand.fields.isEmpty

/-- Whether nothing but the key of the row is read. -/
def readsKeyOnly (demand : Demand) : Bool := demand.fields.all isKeyField

/-- The demands that a demand joins by `AND`. -/
def conjuncts (demand : Demand) : List Demand :=
  match demand.check with
  | .meets c => c.conjuncts.map fun c => { demand with check := .meets c }
  | .keyed _ => [demand]

/-- The demands that a demand joins by `OR`. -/
def disjuncts (demand : Demand) : List Demand :=
  match demand.check with
  | .meets c => c.disjuncts.map fun c => { demand with check := .meets c }
  | .keyed _ => [demand]

/-- How large the condition of a demand is. -/
def size (demand : Demand) : Nat :=
  match demand.check with
  | .meets c => c.size
  | .keyed _ => 1

/-- The demands of checks that are made together.  The last check that fixes a key
field looks at the row itself; all others are given its value. -/
def ofChecks (checks : List Check) : List Demand :=
  let keys := fixedKeys checks
  (checks.foldr (fun check (demands, fixing) =>
    match check.fixed? with
    | some (field, _) =>
      if fixing.contains field then ({ check } :: demands, fixing.erase field)
      else ({ check, given := keys } :: demands, fixing)
    | none => ({ check, given := keys } :: demands, fixing)) ([], keyFields)).1

/-- Whether the demands that are decided before any row hold. -/
def decide (demands : List Demand) : Except EvaluationError Bool :=
  allHold ⟨"", "", .null⟩ demands

end Demand

end DocSearch
