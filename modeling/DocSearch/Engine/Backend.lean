import DocSearch.Engine.Arena
import DocSearch.Engine.Statement

/-!
# Databases and the world of a search

A search runs against a database of which it knows only how it answers a
statement.  Everything that changes while a search runs is its world: the state of
the database, the source that the current aggregation reads, the registered
temporary tables, and a log of the statements that were issued.

## Main definitions

* `Backend` — a database whose states form a type.
* `World` — what changes while a search runs.
* `Run` — a computation in a world that may fail; the world survives a failure.
* `issue`, `materialize`, `release` — the steps that issue statements.
* `discard` — the end of the temporary tables.
-/

namespace DocSearch

open Sql

/-- A row of an answer. -/
abbrev Row := List Value

/-- A database with states in `σ`. -/
structure Backend (σ : Type) where
  /-- The dialect that it understands. -/
  dialect : Dialect
  /-- Its answer to a statement, and the state it is in afterwards. -/
  run : Statement → σ → Except StoreError (List Row) × σ
  /-- Whether the search has been cancelled. -/
  cancelled : σ → Bool
  /-- The table of an index, if the index is there. -/
  tableFor : String → σ → Except StoreError (Option String)
  /-- The indices that are there. -/
  listIndices : σ → Except StoreError (List String)

/-- A statement that was issued and how it ended. -/
structure Issued where
  /-- The statement. -/
  statement : Statement
  /-- What it failed with, if it failed. -/
  failure : Option StoreError

/-- What changes while a search runs. -/
structure World (σ : Type) where
  /-- The state of the database. -/
  state : σ
  /-- What the current aggregation reads. -/
  scope : Source
  /-- The temporary tables. -/
  arena : Arena := Arena.empty
  /-- The statements that were issued, the latest first. -/
  log : List Issued := []

/-- A computation in a world that may fail. -/
abbrev Run (σ ε α : Type) := ExceptT ε (StateM (World σ)) α

namespace Run

variable {σ ε ε' α : Type}

/-- Run a computation from a world. -/
def within (r : Run σ ε α) (w : World σ) : Except ε α × World σ := StateT.run (ExceptT.run r) w

/-- A computation given by its effect on a world. -/
def of (f : World σ → Except ε α × World σ) : Run σ ε α := ExceptT.mk f

/-- The result of something that does not touch the world. -/
def lift (x : Except ε α) : Run σ ε α := of fun w => (x, w)

/-- Read from the world. -/
def read (f : World σ → α) : Run σ ε α := of fun w => (.ok (f w), w)

/-- Change the world. -/
def change (f : World σ → World σ) : Run σ ε Unit := of fun w => (.ok (), f w)

/-- The same computation with its failures renamed. -/
def mapError (f : ε → ε') (r : Run σ ε α) : Run σ ε' α :=
  of fun w => let (x, w) := r.within w; (x.mapError f, w)

/-- The same computation with its failure as a result. -/
def capture (r : Run σ ε α) : Run σ ε' (Except ε α) :=
  of fun w => let (x, w) := r.within w; (.ok x, w)

end Run

variable {σ ε α : Type}

/-- Issue a statement. -/
def issue (b : Backend σ) (s : Statement) : Run σ StoreError (List Row) :=
  Run.of fun w =>
    let (answer, state) := b.run s w.state
    let failure := match answer with
      | .ok _ => none
      | .error e => some e
    (answer, { w with state, log := ⟨s, failure⟩ :: w.log })

/-- Fail if the search has been cancelled. -/
def checkCancelled (b : Backend σ) : Run σ ExecutionError Unit :=
  Run.of fun w => (if b.cancelled w.state then .error .cancelled else .ok (), w)

/-- Read from `scope` while `r` runs, and from what was read before afterwards. -/
def withScope (scope : Source) (r : Run σ ε α) : Run σ ε α :=
  Run.of fun w =>
    let (x, after) := r.within { w with scope }
    (x, { after with scope := w.scope })

/-- Create a temporary table unless it is registered.  The name is registered first,
and a table of that name that is left over is dropped. -/
def materialize (b : Backend σ) (name : String) (selection : Selection) : Run σ StoreError Unit := do
  let fresh ← Run.of fun w =>
    let (fresh, arena) := w.arena.register name
    (.ok fresh, { w with arena })
  if fresh then
    let _ ← issue b (.drop name)
    let _ ← issue b (.create name selection)

/-- Drop up to `count` registered tables, the newest first, and go on past failures;
`first` is the first failure so far. -/
def dropTables (b : Backend σ) :
    Nat → Option StoreError → World σ → Option StoreError × World σ
  | 0, first, w => (first, w)
  | count + 1, first, w =>
    match w.arena.pop? with
    | none => (first, w)
    | some (name, arena) =>
      let (x, w) := (issue b (.drop name)).within { w with arena }
      let failure := match x with
        | .ok _ => none
        | .error e => some e
      dropTables b count (first.or failure) w

/-- Drop every registered table, the newest first.  The failure is that of the first
drop that fails; the others are issued all the same. -/
def release (b : Backend σ) : Run σ StoreError Unit :=
  Run.of fun w =>
    let (failure, w) := dropTables b w.arena.size none w
    (match failure with | some e => .error e | none => .ok (), w)

/-- The end of the temporary tables: what is left of them is dropped, and failures are
passed over. -/
def discard (b : Backend σ) : Run σ ε Unit :=
  Run.of fun w =>
    if w.arena.names.isEmpty then (.ok (), w) else (.ok (), ((release b).within w).2)

end DocSearch
