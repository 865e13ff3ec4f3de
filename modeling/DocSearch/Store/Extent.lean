import DocSearch.Engine.Statement
import DocSearch.Store.Demand

/-!
# How large a statement may be

A statement that is too large is refused before anything is decided or looked at.  It
may bind only so many values, read only so many tables, and order its rows by only so
many expressions.  Its expressions may be nested only so deeply, where a chain
`a AND b AND c` is nested like `(a AND b) AND c`: each link of it is one level more.

The statement is read from left to right, and the first excess is reported.  Its
condition is nested anew when everything has been read: the demand that a bucket is
there is joined to it, and where it is handed down to several tables its parts are
joined in reverse.

## Main definitions

* `Extent`, `Extent.chained` — how far an expression extends.
* `Condition.extents` — the extents of what a condition joins by `AND`.
* `Statement.refusal?` — why a statement is refused.
* `refusedBelow` — whether checks that are handed down are refused.
-/

namespace DocSearch

open Sql

/-! ### Limits -/

/-- How deeply an expression may be nested. -/
def maxNesting : Nat := 1000

/-- How many values a statement may bind. -/
def maxValues : Nat := 32766

/-- How many tables a statement may read. -/
def maxTables : Nat := 500

/-- By how many expressions a statement may order its rows. -/
def maxOrderTerms : Nat := 2000

/-! ### Extents -/

/-- How far an expression extends. -/
structure Extent where
  /-- How deeply it is nested. -/
  depth : Nat
  /-- How many values it binds. -/
  values : Nat := 0
  /-- How many values are bound before it is nested too deeply, if it ever is. -/
  excess : Option Nat := none
  deriving DecidableEq, Repr

namespace Extent

/-- Two expressions, one behind the other, under one operator. -/
def joined (a b : Extent) : Extent :=
  let depth := max a.depth b.depth + 1
  let values := a.values + b.values
  let excess := a.excess.or (b.excess.map (a.values + ·))
  ⟨depth, values, excess.or (if maxNesting < depth then some values else none)⟩

/-- An expression under an operator that takes nothing else. -/
def under (e : Extent) : Extent := joined e ⟨0, 0, none⟩

/-- A chain of expressions with an operator between neighbours. -/
def chained : List Extent → Extent
  | [] => ⟨0, 0, none⟩
  | e :: es => es.foldl joined e

@[simp] theorem chained_singleton (e : Extent) : chained [e] = e := rfl

@[simp] theorem values_joined (a b : Extent) : (joined a b).values = a.values + b.values := rfl

end Extent

/-- How deeply the value of a field is nested: a column stands for itself. -/
def valueDepth (field : String) : Nat := if isKeyField field then 1 else 2

/-- How deeply the text of a field is nested. -/
def textDepth (field : String) : Nat := if isKeyField field then 1 else 3

/-- The extent of a test.  To be among one value is to equal it with a sign in front. -/
def Test.extent : Test → Extent
  | equals field _ | like field _ | compareText field _ _ => ⟨textDepth field + 1, 1, none⟩
  | among field [_] => ⟨max (textDepth field) 2 + 1, 1, none⟩
  | among field values => ⟨textDepth field + 1, values.length, none⟩
  | compareNumber field _ _ => ⟨valueDepth field + 2, 1, none⟩
  | present field => ⟨valueDepth field + 1, 0, none⟩

namespace Condition

mutual

/-- The extents of what a condition joins by `AND` as it is written. -/
def extents : Condition → List Extent
  | .test t => [t.extent]
  | .never => [⟨2, 0, none⟩]
  | .all parts => extentsOfList parts
  | .any parts => [.chained (extentsOfEach parts)]
  | .group c => [.chained (extents c)]
  | .not c => [.under (.chained (extents c))]

/-- The extents of what several conditions join by `AND`. -/
def extentsOfList : List Condition → List Extent
  | [] => []
  | c :: cs => extents c ++ extentsOfList cs

/-- The extent of each of several conditions. -/
def extentsOfEach : List Condition → List Extent
  | [] => []
  | c :: cs => .chained (extents c) :: extentsOfEach cs

end

/-- The extent of a condition. -/
def extent (c : Condition) : Extent := .chained c.extents

end Condition

/-- The extent of the demand that a bucket is there. -/
def bucketPresence : Extent := ⟨2, 0, none⟩

/-- The extent of a check. -/
def Check.extent : Check → Extent
  | meets c => c.extent
  | keyed _ => bucketPresence

/-- Whether checks are refused when they are handed down to several tables, the last
one first. -/
def refusedBelow (checks : List Check) : Bool :=
  maxNesting < (Extent.chained (checks.reverse.map Check.extent)).depth

/-! ### Statements -/

/-- How many bytes stand in front of the placeholder behind `n` others.  `quoted` says
that the text starts inside a literal. -/
def bytesBefore (n : Nat) (quoted : Bool) : List Char → Nat
  | [] => 0
  | c :: cs =>
    if c = '\x27' then c.utf8Size + bytesBefore n (!quoted) cs
    else if c = '?' ∧ quoted = false then
      match n with
      | 0 => 0
      | n + 1 => c.utf8Size + bytesBefore n quoted cs
    else c.utf8Size + bytesBefore n quoted cs

/-- The refusal of a statement for the number of its values. -/
def tooManyValues (sql : String) : EvaluationError :=
  .tooManyValues sql (bytesBefore maxValues false sql.toList)

/-- The extents of what a source asks of its rows. -/
def Source.extents : Source → List Extent
  | .table _ => []
  | .documents targets types filter =>
    if targets.isEmpty then []
    else
      let ofTypes :=
        if types.isEmpty then [] else [(Test.among "_type" (types.map .text)).extent]
      ofTypes ++ (filter.map Condition.extents).getD []

/-- How many tables a source reads. -/
def Source.tables : Source → Nat
  | .table _ => 1
  | .documents targets _ _ => targets.length

namespace Statement

/-- The source of a statement. -/
def source? : Statement → Option Source
  | metric _ _ source | histogram _ source | count source | page source _ _ _ => some source
  | create _ (.bucketed _ source) => some source
  | _ => none

/-- By how many expressions a statement orders its rows. -/
def orderTerms : Statement → Nat
  | page _ sort _ _ => sort.length
  | _ => 0

/-- What the condition of a statement is joined to. -/
def joinedTo : Statement → List Extent
  | histogram _ _ => [bucketPresence]
  | _ => []

/-- Why a statement is refused, if it is. -/
def refusal? (s : Statement) : Option EvaluationError :=
  let source := s.source?.getD (.table "")
  let written := Extent.chained source.extents
  if maxTables < source.tables then some .tooManyTables
  else if written.excess.any (· ≤ maxValues) then some .tooDeep
  else if maxValues < written.values then some (tooManyValues (s.render .sqlite).sql)
  else if maxOrderTerms < s.orderTerms then some .tooManyOrderTerms
  else if maxNesting < (Extent.chained (source.extents ++ s.joinedTo)).depth then some .tooDeep
  else none

end Statement

end DocSearch
