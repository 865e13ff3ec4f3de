import DocSearch.Query.Predicate
import DocSearch.Sql.Dialect

/-!
# Conditions on documents

The condition that follows `WHERE` is a tree of comparisons of fields with bound
values.  The tree does not depend on the dialect; rendering it does, in the
expressions for its fields only.  A query that restricts nothing has no condition
at all, so the conditions of a query form an `Option`.

## Main definitions

* `Test` — a comparison of one field.
* `Condition` — tests combined by `AND`, `OR` and `NOT`, with the parentheses
  that are written.
* `Condition.all?`, `Condition.any?` — combine what restricts anything.
* `Condition.render` — the text of a condition with its bound values.
-/

namespace DocSearch

open Sql

/-- A comparison of a field with bound values. -/
inductive Test where
  /-- The text of the field equals a value. -/
  | equals (field : String) (value : Value)
  /-- The text of the field equals one of several values. -/
  | among (field : String) (values : List Value)
  /-- The text of the field matches a pattern. -/
  | like (field : String) (pattern : String)
  /-- The text of the field compares with a value. -/
  | compareText (field : String) (op : RangeOp) (value : Value)
  /-- The field is a number that compares with a value. -/
  | compareNumber (field : String) (op : RangeOp) (value : Value)
  /-- The field has a value. -/
  | present (field : String)
  deriving DecidableEq, Repr

/-- A condition on a document. -/
inductive Condition where
  /-- A comparison. -/
  | test (t : Test)
  /-- A condition that no document meets. -/
  | never
  /-- Conditions joined by `AND`. -/
  | all (parts : List Condition)
  /-- Conditions joined by `OR`. -/
  | any (parts : List Condition)
  /-- A condition in parentheses. -/
  | group (c : Condition)
  /-- The negation of a condition. -/
  | not (c : Condition)
  deriving Repr

namespace Test

/-- The text of a test with its bound values. -/
def render (d : Dialect) : Test → Fragment
  | equals field value => ⟨d.fieldText field ++ " = ?", [value]⟩
  | among field values =>
    ⟨d.fieldText field ++ " IN (" ++ placeholders values.length ++ ")", values⟩
  | like field pattern => ⟨d.fieldText field ++ " LIKE ? ESCAPE '\\'", [.text pattern]⟩
  | compareText field op value => ⟨d.fieldText field ++ " " ++ op.sql ++ " ?", [value]⟩
  | compareNumber field op value =>
    ⟨d.numeric (d.fieldValue field) ++ " " ++ op.sql ++ " ?", [value]⟩
  | present field => ⟨d.fieldValue field ++ " IS NOT NULL", []⟩

end Test

namespace Condition

/-- The conditions of several parts joined by `AND`; parts that restrict nothing
are left out. -/
def all? (parts : List (Option Condition)) : Option Condition :=
  match parts.filterMap id with
  | [] => none
  | c :: cs => some (.all (c :: cs))

/-- The conditions of several parts joined by `OR`; parts that restrict nothing
are left out. -/
def any? (parts : List (Option Condition)) : Option Condition :=
  match parts.filterMap id with
  | [] => none
  | c :: cs => some (.any (c :: cs))

mutual

/-- The text of a condition with its bound values. -/
def render (d : Dialect) : Condition → Fragment
  | .test t => t.render d
  | .never => Fragment.never
  | .all parts => Fragment.join " AND " (renderList d parts)
  | .any parts => Fragment.join " OR " (renderList d parts)
  | .group c => (render d c).parenthesized
  | .not c => (render d c).negated

/-- The texts of several conditions. -/
def renderList (d : Dialect) : List Condition → List Fragment
  | [] => []
  | c :: cs => render d c :: renderList d cs

end

/-- The text of a condition that may restrict nothing. -/
def render? (d : Dialect) : Option Condition → Fragment
  | some c => c.render d
  | none => Fragment.empty

@[simp] theorem render?_none (d : Dialect) : render? d none = Fragment.empty := rfl

@[simp] theorem render?_some (d : Dialect) (c : Condition) : render? d (some c) = c.render d := rfl

theorem renderList_eq_map (d : Dialect) (cs : List Condition) :
    renderList d cs = cs.map (render d) := by
  induction cs with
  | nil => rfl
  | cons c cs ih => simp [renderList, ih]

end Condition

end DocSearch
