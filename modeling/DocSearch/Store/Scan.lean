import DocSearch.Store.Database
import DocSearch.Store.Extent
import DocSearch.Store.Plan

/-!
# Looking through tables

A statement reads from one or several tables.  What is looked at, and in which order,
shows when something fails and in the order of what is found.

* For one table there is one plan.
* The rows of several tables that are given as they are found are looked for in one
  table after the other, each with a plan of its own.
* If a statement needs all rows of several tables before it gives anything, everything
  is asked twice: first in each table, in reverse, and then of whatever is found there.

## Main definitions

* `Candidate` — a document of a source.
* `Database.eachInTurn`, `Database.allTogether` — the two ways to look through tables.
* `Database.candidates` — the candidates of a source.
-/

namespace DocSearch

open Sql

/-- A document of a source. -/
structure Candidate where
  /-- The index of the document; empty in a temporary table. -/
  index : String
  /-- The document. -/
  document : Document

/-- What a source asks of its documents. -/
def sourceChecks (types : List String) (filter : Option Condition) : List Check :=
  let ofTypes :=
    if types.isEmpty then [] else [Check.meets (.test (.among "_type" (types.map .text)))]
  ofTypes ++ ((filter.map Condition.conjuncts).getD []).map .meets

/-- Whether nothing but the key of the rows is needed for some fields and checks. -/
def needsOnlyKeys (fields : List String) (checks : List Check) : Bool :=
  fields.all isKeyField && checks.all fun c => c.fields.all isKeyField

namespace Database

/-- The documents of a target. -/
def targetRows (db : Database) (t : Target) : Except EvaluationError (List Document) :=
  match db.indexTable? t.table with
  | some docs => .ok docs
  | none => .error (.noSuchTable t.table)

/-- The documents of a target as candidates. -/
def ofTarget (t : Target) (found : Found Document) : Found Candidate :=
  found.map fun d => ⟨t.index, d⟩

/-- The candidates of a target for some demands. -/
def inTarget (db : Database) (demands : List Demand) (t : Target) : Found Candidate :=
  .ofExcept do
    return ofTarget t ((Plan.make {} demands).plan.run (← db.targetRows t))

/-- The candidates of targets, each looked through by itself. -/
def eachInTurn (db : Database) (checks : List Check) (targets : List Target) : Found Candidate :=
  .concat (targets.map (db.inTarget (Demand.ofChecks checks)))

/-- The candidates of targets whose rows are needed all together. -/
def allTogether (db : Database) (checks : List Check) (targets : List Target) :
    Found Candidate :=
  let (decided, pending) := (Demand.ofChecks checks).partition Demand.isDecided
  let settled := pending.reverse.map fun a => { a with settled := true }
  let found := Found.concat (targets.map (db.inTarget settled))
  if refusedBelow checks then .fail .tooDeep
  else
    .ofExcept do
      if ← Demand.decide decided then
        return found.filterM fun c => Demand.allHold c.document pending
      else return .empty

/-- The candidates of a target with a plan of its own. -/
def planned (db : Database) (g : Goal) (checks : List Check) (t : Target) : Found Candidate :=
  .ofExcept do
    return ofTarget t ((Plan.make g (Demand.ofChecks checks)).plan.run (← db.targetRows t))

/-- The candidates of a temporary table. -/
def inTemporary (db : Database) (name : String) (checks : List Check) : Found Candidate :=
  match db.temporaryTable? name with
  | none => .fail (.noSuchTable name)
  | some rows =>
    (Found.ofList (rows.map fun r => ⟨"", r.document⟩)).filterM fun c =>
      Demand.allHold c.document (checks.map fun check => { check })

/-- The candidates of a source, `extra` being asked behind everything else; `fields` are
those that the statement needs, and `goal` says what else it wants. -/
def candidates (db : Database) (goal : Goal) (fields : List String) (extra : List Check) :
    Source → Found Candidate
  | .table name => db.inTemporary name extra
  | .documents targets types filter =>
    let checks := sourceChecks types filter ++ extra
    match targets with
    | [] => .empty
    | [t] => db.planned { goal with onlyKeys := needsOnlyKeys fields checks } checks t
    | _ => db.allTogether checks targets

end Database

end DocSearch
