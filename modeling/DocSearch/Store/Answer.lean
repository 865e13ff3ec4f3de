import DocSearch.Engine.Backend
import DocSearch.Store.Scan
import DocSearch.Store.Summary

/-!
# Answers of a database

What each statement of a search gives, and what it changes.

## Main definitions

* `Database.answer` — the rows that a statement reads.
* `Database.execute` — the database after a command.
* `Session`, `Session.backend` — a database with a search running against it.
-/

namespace DocSearch

open Sql

/-! ### Metrics and buckets -/

/-- The cell that a metric looks at: a value is counted as it is, and everything else
is computed over numbers. -/
def Metric.cellOf (m : Metric) (field : String) (d : Document) : Except EvaluationError Cell :=
  match m with
  | .valueCount => d.fieldValue field
  | _ => d.fieldNumber field

/-- Put a key into a strictly increasing list. -/
def insertKey (key : Int64) : List Int64 → List Int64
  | [] => [key]
  | k :: ks =>
    if key.toInt < k.toInt then key :: k :: ks
    else if key = k then k :: ks
    else k :: insertKey key ks

/-- The keys in strictly increasing order. -/
def distinctKeys (keys : List Int64) : List Int64 := keys.foldr insertKey []

/-- The row of a bucket and its number of documents. -/
def countRow (keys : List Int64) (key : Int64) : Row :=
  [.integer key, .integer (Int64.ofNat (keys.count key))]

/-- The bucket that a cell names. -/
def Cell.bucket? : Cell → Option Int64
  | integer n => some n
  | _ => none

/-! ### Pages -/

/-- The order of rows by the cells of clauses. -/
def compareBy : List SortClause → List Cell → List Cell → Ordering
  | c :: clauses, a :: as, b :: bs =>
    let o := a.order b
    (if c.ascending then o else o.swap).then (compareBy clauses as bs)
  | _, _, _ => .eq

/-- A row of a page with the cells that it is sorted by. -/
structure SortedRow where
  /-- The cells. -/
  cells : List Cell
  /-- The row. -/
  row : Row

/-- Whether a row does not come behind another one. -/
def SortedRow.le (clauses : List SortClause) (a b : SortedRow) : Bool :=
  compareBy clauses a.cells b.cells != .gt

/-- Whether two rows agree in the first cells. -/
def SortedRow.agree (count : Nat) (clauses : List SortClause) (a b : SortedRow) : Bool :=
  compareBy (clauses.take count) a.cells b.cells == .eq

namespace Candidate

/-- A document as the row of a page. -/
def pageRow (c : Candidate) : Row :=
  [.text c.index, .text c.document.id, .text c.document.docType, .text c.document.body.print]

/-- A row of a page with the cells that it is sorted by. -/
def sortedRow (clauses : List SortClause) (c : Candidate) : Except EvaluationError SortedRow := do
  return ⟨← clauses.mapM fun s => c.document.fieldValue s.field, c.pageRow⟩

end Candidate

/-- What an order of a page looks at. -/
def SortClause.orderTerm (s : SortClause) : OrderTerm :=
  ⟨KeyColumn.ofField? s.field, !s.ascending⟩

/-- How many rows have to be found for a page; a negative size means all of them. -/
def pageEnd (size offset : Int64) : Option Nat :=
  if size < 0 then none else some (offset.toInt.toNat + size.toInt.toNat)

/-- What a page wants of a table. -/
def pageGoal (clauses : List SortClause) (limit : Option Int64) : Goal where
  order := clauses.map SortClause.orderTerm
  limit := (limit.filter fun n => 0 ≤ n).map fun n => n.toInt.toNat
  columns := 4

/-! ### Statements -/

namespace Database

/-- The first rows of a target in an order.  If they are found in this order, nothing is
sorted. -/
def sortedTarget (db : Database) (clauses : List SortClause) (count : Option Nat) (g : Goal)
    (checks : List Check) (t : Target) : Found SortedRow :=
  .ofExcept do
    let docs ← db.targetRows t
    let ⟨plan, arrangement⟩ := Plan.make g (Demand.ofChecks checks)
    let rowsOf (found : Found Document) : Found SortedRow :=
      (ofTarget t found).mapM (·.sortedRow clauses)
    let le := SortedRow.le clauses
    match arrangement, count with
    | .inOrder, _ =>
      if clauses.all fun s => isKeyField s.field then return rowsOf (plan.run docs)
      else return (ofTarget t (plan.run docs)).map fun c => ⟨[], c.pageRow⟩
    | .inBlocks n, _ =>
      return (rowsOf (plan.run docs)).sortedInBlocks (SortedRow.agree n clauses) le
    | .inRuns, some n => return .ofList (← Found.least le n ((plan.runs docs).map rowsOf))
    | _, _ => return (rowsOf (plan.run docs)).sorted le

/-- How many of several searches are merged first with each other before they are merged
with the rest: all but the last of up to three, and half of them otherwise. -/
def mergedFirst (count : Nat) : Nat := if count ≤ 3 then count - 1 else count / 2

/-- Several searches merged by turns; at most `depth` times they are divided. -/
def mergeAll (le : SortedRow → SortedRow → Bool) : Nat → List (Found SortedRow) → Found SortedRow
  | _, [] => .empty
  | _, [x] => x
  | 0, xs => .concat xs
  | depth + 1, xs =>
    let n := mergedFirst xs.length
    (mergeAll le depth (xs.take n)).merge le (mergeAll le depth (xs.drop n))

/-- The rows of several targets in an order that looks at the key only.  The rows of each
are sorted by themselves, whatever the number that is wanted. -/
def mergedTargets (db : Database) (clauses : List SortClause) (count : Option Nat)
    (checks : List Check) (targets : List Target) : Found SortedRow :=
  mergeAll (SortedRow.le clauses) targets.length
    (targets.map (db.sortedTarget clauses count (pageGoal clauses none) checks))

/-- The rows that a page is taken from, in their order. -/
def pageRows (db : Database) (clauses : List SortClause) (size offset : Int64) :
    Source → Found Row
  | .table name =>
    (((db.inTemporary name []).mapM (·.sortedRow clauses)).sorted (SortedRow.le clauses)).map
      (·.row)
  | .documents targets types filter =>
    let checks := sourceChecks types filter
    let count := pageEnd size offset
    let byKeyOnly := clauses.all fun s => isKeyField s.field
    match targets with
    | [t] => (db.sortedTarget clauses count (pageGoal clauses (some size)) checks t).map (·.row)
    | _ =>
      if clauses.isEmpty then (db.eachInTurn checks targets).map Candidate.pageRow
      else if byKeyOnly then
        (db.mergedTargets clauses count checks targets).map (·.row)
      else
        (((db.allTogether checks targets).mapM (·.sortedRow clauses)).sorted
          (SortedRow.le clauses)).map (·.row)

/-- The order that a metric wants: the least or the greatest value comes first. -/
def metricOrder : Metric → List OrderTerm
  | .min => [⟨none, false⟩]
  | .max => [⟨none, true⟩]
  | _ => []

/-- The rows that a statement reads if it is not refused; a command reads none. -/
def read (db : Database) : Statement → Except EvaluationError (List Row)
  | .metric m field source => do
    let goal : Goal := { order := metricOrder m, columns := 1 }
    let cells ← ((db.candidates goal [field] [] source).mapM fun c =>
      m.cellOf field c.document).toExcept
    return [[(← m.summarize cells).toValue]]
  | .histogram key source => do
    let goal : Goal := { order := [⟨none, false⟩], columns := 2 }
    let cells ← ((db.candidates goal [key.field] [.keyed key] source).mapM fun c =>
      c.document.bucketKey key).toExcept
    let keys := cells.filterMap Cell.bucket?
    return (distinctKeys keys).map (countRow keys)
  | .buckets table =>
    match db.temporaryTable? table with
    | some rows => .ok ((distinctKeys (rows.filterMap (·.bucket))).map fun key => [.integer key])
    | none => .error (.noSuchTable table)
  | .count source => do
    let found ← (db.candidates { columns := 1 } [] [] source).toExcept
    return [[.integer (Int64.ofNat found.length)]]
  | .page source clauses size offset => do
    let rows ← (db.pageRows clauses size offset source).upTo (pageEnd size offset)
    return rows.drop offset.toInt.toNat
  | .drop _ => .ok []
  | .create _ _ => .ok []

/-- The rows that a statement reads, unless it is refused. -/
def answer (db : Database) (s : Statement) : Except EvaluationError (List Row) :=
  if s.isCommand then .ok []
  else match s.refusal? with
    | some e => .error e
    | none => db.read s

/-- The rows that a selection puts into a temporary table. -/
def select (db : Database) : Selection → Except EvaluationError (List TemporaryRow)
  | .bucketed key source =>
    let candidates : Found Candidate :=
      match source with
      | .table name => db.inTemporary name []
      | .documents targets types filter => db.eachInTurn (sourceChecks types filter) targets
    (candidates.mapM fun c => do
      return (⟨(← c.document.bucketKey key).bucket?, c.document⟩ : TemporaryRow)).toExcept
  | .bucket table key =>
    match db.temporaryTable? table with
    | some rows =>
      .ok ((rows.filter fun r => r.bucket == some key).map fun r => ⟨none, r.document⟩)
    | none => .error (.noSuchTable table)
  | .verbatim _ => .error .notUnderstood

/-- The database after a statement; only commands change it. -/
def execute (db : Database) : Statement → Except EvaluationError Database
  | .drop table => .ok (db.dropTemporary table)
  | .create table selection =>
    if (db.temporaryTable? table).isSome then .error (.tableExists table)
    else match (Statement.create table selection).refusal? with
      | some e => .error e
      | none => do return db.addTemporary table (← db.select selection)
  | _ => .ok db

end Database

/-! ### Sessions -/

/-- A database with a search running against it. -/
structure Session where
  /-- The database. -/
  database : Database
  /-- Whether the search has been cancelled. -/
  cancelled : Bool := false

namespace Session

/-- The answer to a statement; one that fails changes nothing. -/
def run (s : Statement) (session : Session) : Except StoreError (List Row) × Session :=
  let result := do
    let rows ← session.database.answer s
    return (rows, ← session.database.execute s)
  match result with
  | .ok (rows, database) => (.ok rows, { session with database })
  | .error e => (.error (.evaluation e), session)

/-- The database that answers a search. -/
def backend : Backend Session where
  dialect := .sqlite
  run := run
  cancelled := cancelled
  tableFor := fun index session => session.database.tableFor index
  listIndices := fun session => .ok session.database.listIndices

end Session

end DocSearch
