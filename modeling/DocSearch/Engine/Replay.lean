import DocSearch.Engine.Backend

/-!
# A database that follows a script

A database whose answers are written down beforehand, in the order in which they
are asked for.  It shows what a search does when the rows, the failures and the
moment of a cancellation are chosen freely.

## Main definitions

* `Replay` — the script and how far it has been followed.
* `Replay.backend` — the database of a script.
-/

namespace DocSearch

open Sql

/-- A script and how far it has been followed. -/
structure Replay where
  /-- The indices that are there. -/
  indices : List String := []
  /-- Whether looking for indices fails. -/
  lookupsFail : Bool := false
  /-- The answers to the statements that read rows; no rows once they are used up. -/
  replies : List (Except StoreError (List Row)) := []
  /-- The commands that fail, counted from zero. -/
  failingCommands : List Nat := []
  /-- Whether the search has been cancelled. -/
  cancelled : Bool := false
  /-- The statement on whose arrival the search is cancelled, counted from zero. -/
  cancelAt : Option Nat := none
  /-- How many statements have arrived since counting started. -/
  arrived : Nat := 0
  /-- How many commands have arrived. -/
  commands : Nat := 0

namespace Replay

/-- Note the arrival of a statement. -/
def arrive (r : Replay) : Replay :=
  { r with
    arrived := r.arrived + 1
    cancelled := r.cancelled || r.cancelAt == some r.arrived }

/-- The answer to a statement. -/
def run (s : Statement) (r : Replay) : Except StoreError (List Row) × Replay :=
  let r := r.arrive
  if s.isCommand then
    let answer :=
      if r.failingCommands.contains r.commands then
        .error (.invalidIndexName ("execute " ++ toString r.commands))
      else .ok []
    (answer, { r with commands := r.commands + 1 })
  else
    match r.replies with
    | [] => (.ok [], r)
    | reply :: replies => (reply, { r with replies })

/-- The table of an index of the script. -/
def tableFor (index : String) (r : Replay) : Except StoreError (Option String) := do
  let table ← Index.tableName index
  if r.lookupsFail then .error .poisoned
  else return if r.indices.contains index then some table else none

/-- The indices of the script, in its order. -/
def listIndices (r : Replay) : Except StoreError (List String) :=
  if r.lookupsFail then .error .poisoned else .ok r.indices

/-- The database of a script that speaks a given dialect. -/
def backend (d : Dialect) : Backend Replay := ⟨d, run, cancelled, tableFor, listIndices⟩

/-- Count the statements from zero again. -/
def restart (r : Replay) : Replay := { r with arrived := 0 }

end Replay

end DocSearch
