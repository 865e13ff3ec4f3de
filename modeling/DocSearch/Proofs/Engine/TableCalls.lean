import DocSearch.Proofs.Engine.Reference
import DocSearch.Proofs.Engine.Walk

/-!
# The calls for temporary tables

A walk asks for a temporary table by the parts of its name and by what fills it, and a call
for a table that is registered leaves no trace in the log.  So the calls are recorded beside
the state of the database.  A walk may fill its tables in any way; if it does so by
materializing them it is the walk of a request, and if it writes its calls down as well then
it is this walk once the record is forgotten.

## Main definitions

* `Fill` — a way to fill the tables of a walk, and `materializing`, the one of a request.
* `runRequestFilling` — a request whose walk fills its tables in some way.
* `TableCall` — a call for a temporary table, in the world in which it is made.
* `recording` — materialize the tables, and write the calls down.
* `tableCalls` — the calls of a request.
* `Run.Forgets` — a computation is another one once the record is forgotten.

## Main results

* `runRequestFilling_materializing` — a request materializes its tables.
* `recordedRequest_forgets` — **a record changes nothing.**
-/

namespace DocSearch

open Sql

variable {σ : Type}

/-! ### Ways to fill tables -/

/-- A way to fill the table with a name that is made of some parts. -/
abbrev Fill (σ : Type) := List String → Selection → Run σ StoreError Unit

/-- Tables are materialized. -/
def materializing (b : Backend σ) : Fill σ :=
  fun parts selection => materialize b (tempTableName parts) selection

/-- What the name of a table of rows with their buckets is made of. -/
def bucketedTableParts (d : Dialect) (c : SearchContext) (scope : Source) (key : BucketKey) :
    List String :=
  let source := scope.render d
  [c.source, source.sql, (Json.arr (source.params.map Value.toJson)).print, key.field,
    key.interval.unit]

section Filling

variable (fill : Fill σ) (b : Backend σ) (c : SearchContext)

/-- The bucket with a given key. -/
def runBucketFilling (format : Option DateFormat) (bucketed : String)
    (children : Run σ ExecutionError (List (String × Json))) (key : Int64) :
    Run σ ExecutionError Json := do
  checkCancelled b
  let table := bucketTableName bucketed key
  (fill (bucketParts bucketed key) (.bucket bucketed key)).mapError .aggregation
  let rows ← query b (.count (.table table))
  let count := (firstValue rows).toInt64?.getD 0
  let results ← withScope (.table table) children
  return .obj (Members.putAll (bucketMembers format key count) results)

/-- The buckets of a histogram with children. -/
def bucketsFilling (key : BucketKey) (format : Option DateFormat)
    (children : Run σ ExecutionError (List (String × Json))) :
    Run σ ExecutionError (List Json) := do
  let scope ← Run.read (·.scope)
  let bucketed := bucketedTableName b.dialect c scope key
  (fill (bucketedTableParts b.dialect c scope key) (.bucketed key scope)).mapError .aggregation
  let rows ← query b (.buckets bucketed)
  let keys := rows.filterMap fun row => row.head?.bind Value.toInt64?
  keys.mapM (runBucketFilling fill b format bucketed children)

mutual

/-- The result of an aggregation. -/
def Aggregation.runFilling : Aggregation → Run σ ExecutionError Json
  | .metric m field => do
    checkCancelled b
    runMetric b m field
  | .dateHistogram field interval format children => do
    checkCancelled b
    let key ← Run.lift (bucketKey c field interval)
    let buckets ←
      if children.isEmpty then groupedBuckets b key format
      else bucketsFilling fill b c key format (Aggregations.runFilling children)
    return .obj [("buckets", .arr buckets)]

/-- The results of siblings. -/
def Aggregations.runFilling :
    List (String × Aggregation) → Run σ ExecutionError (List (String × Json))
  | [] => return []
  | (name, a) :: rest => do
    let result ← Aggregation.runFilling a
    return (name, result) :: (← Aggregations.runFilling rest)

end

/-- The walk of a request. -/
def walkFilling (siblings : Aggregations) (base : Source) :
    Run σ ExecutionError (List (String × Json)) :=
  withScope base do
    checkCancelled b
    Aggregations.runFilling fill b c siblings

/-- A request. -/
def runRequestFilling (r : Request) : Run σ ExecutionError Outcome := do
  let condition ← Run.lift (r.predicate.compile.mapError (.search ∘ .query))
  let walk ← (walkFilling fill b c r.aggregations (.documents c.targets c.types condition)).capture
  let released ← (release b).capture
  let aggregations ← Run.lift (walk : Except ExecutionError _)
  Run.lift (released.mapError .aggregation)
  return ⟨condition, aggregations⟩

end Filling

section Materializing

variable (b : Backend σ) (c : SearchContext)

theorem bucketsFilling_materializing (key : BucketKey) (format : Option DateFormat)
    (children : Run σ ExecutionError (List (String × Json))) :
    bucketsFilling (materializing b) b c key format children =
      materializedBuckets b c key format children := rfl

mutual

theorem Aggregation.runFilling_materializing : ∀ a : Aggregation,
    Aggregation.runFilling (materializing b) b c a = Aggregation.run b c a
  | .metric m field => by rw [Aggregation.runFilling, Aggregation.run]
  | .dateHistogram field interval format children => by
    rw [Aggregation.runFilling, Aggregation.run, Aggregations.runFilling_materializing children]
    simp only [bucketsFilling_materializing]

theorem Aggregations.runFilling_materializing : ∀ siblings : List (String × Aggregation),
    Aggregations.runFilling (materializing b) b c siblings = Aggregations.run b c siblings
  | [] => by rw [Aggregations.runFilling, Aggregations.run]
  | (name, a) :: rest => by
    rw [Aggregations.runFilling, Aggregations.run, Aggregation.runFilling_materializing a,
      Aggregations.runFilling_materializing rest]

end

/-- A request materializes its tables. -/
theorem runRequestFilling_materializing (r : Request) :
    runRequestFilling (materializing b) b c r = runRequest b c r := by
  simp only [runRequestFilling, walkFilling, Aggregations.runFilling_materializing]
  rfl

end Materializing

/-! ### Something kept beside the state -/

section Beside

variable {ρ ε ε' α β : Type}

/-- A database with something kept beside its state. -/
def Backend.beside (b : Backend σ) (ρ : Type) : Backend (σ × ρ) where
  dialect := b.dialect
  run s both := ((b.run s both.1).1, (b.run s both.1).2, both.2)
  cancelled both := b.cancelled both.1
  tableFor index both := b.tableFor index both.1
  listIndices both := b.listIndices both.1

/-- The world without what is kept beside the state. -/
def World.forget (w : World (σ × ρ)) : World σ := ⟨w.state.1, w.scope, w.arena, w.log⟩

namespace Run

/-- A computation is another one, once what is kept beside the state is forgotten. -/
def Forgets (r' : Run (σ × ρ) ε α) (r : Run σ ε α) : Prop :=
  ∀ w, r.within w.forget = ((r'.within w).1, (r'.within w).2.forget)

theorem Forgets.pure (a : α) : Forgets (Pure.pure a : Run (σ × ρ) ε α) (Pure.pure a) := fun _ => rfl

theorem Forgets.lift (x : Except ε α) : Forgets (Run.lift x : Run (σ × ρ) ε α) (Run.lift x) :=
  fun _ => rfl

theorem Forgets.bind {x' : Run (σ × ρ) ε α} {x : Run σ ε α} {f' : α → Run (σ × ρ) ε β}
    {f : α → Run σ ε β} (hx : Forgets x' x) (hf : ∀ a, Forgets (f' a) (f a)) :
    Forgets (x' >>= f') (x >>= f) := by
  intro w
  rw [within_bind, within_bind, hx w]
  cases x'.within w with
  | mk result after =>
    cases result with
    | error e => rfl
    | ok a => exact hf a after

theorem Forgets.scope_bind {f' : Source → Run (σ × ρ) ε α} {f : Source → Run σ ε α}
    (hf : ∀ scope, Forgets (f' scope) (f scope)) :
    Forgets (Run.read (·.scope) >>= f') (Run.read (·.scope) >>= f) :=
  Forgets.bind (fun _ => rfl) hf

theorem Forgets.mapError {r' : Run (σ × ρ) ε α} {r : Run σ ε α} (hr : Forgets r' r) (f : ε → ε') :
    Forgets (r'.mapError f) (r.mapError f) := by
  intro w
  rw [within_mapError, within_mapError, hr w]

theorem Forgets.capture {r' : Run (σ × ρ) ε α} {r : Run σ ε α} (hr : Forgets r' r) :
    Forgets (r'.capture : Run (σ × ρ) ε' _) r.capture := by
  intro w
  rw [within_capture, within_capture, hr w]

theorem Forgets.withScope {r' : Run (σ × ρ) ε α} {r : Run σ ε α} (hr : Forgets r' r)
    (scope : Source) : Forgets (DocSearch.withScope scope r') (DocSearch.withScope scope r) := by
  intro w
  have hscope : { w.forget with scope } = World.forget { w with scope } := rfl
  rw [within_withScope, within_withScope, hscope, hr]
  rfl

theorem Forgets.mapM {f' : α → Run (σ × ρ) ε β} {f : α → Run σ ε β} (as : List α)
    (hf : ∀ a, Forgets (f' a) (f a)) : Forgets (as.mapM f') (as.mapM f) := by
  induction as with
  | nil => exact .pure []
  | cons a as ih =>
    rw [List.mapM_cons, List.mapM_cons]
    exact (hf a).bind fun _ => ih.bind fun _ => .pure _

end Run

open Run

variable (b : Backend σ) (c : SearchContext)

/-! ### What is kept changes nothing -/

theorem issue_forgets (s : Statement) : Forgets (issue (b.beside ρ) s) (issue b s) := fun _ => rfl

theorem query_forgets (s : Statement) : Forgets (query (b.beside ρ) s) (query b s) := fun _ => rfl

theorem checkCancelled_forgets : Forgets (checkCancelled (b.beside ρ)) (checkCancelled b) :=
  fun _ => rfl

theorem materialize_forgets (name : String) (selection : Selection) :
    Forgets (materialize (b.beside ρ) name selection) (materialize b name selection) := by
  refine Forgets.bind (fun _ => rfl) fun fresh => ?_
  split
  · exact (issue_forgets b _).bind fun _ => (issue_forgets b _).bind fun _ => .pure ()
  · exact .pure ()

theorem dropTables_forgets (count : Nat) (first : Option StoreError) (w : World (σ × ρ)) :
    dropTables b count first w.forget =
      ((dropTables (b.beside ρ) count first w).1,
        (dropTables (b.beside ρ) count first w).2.forget) := by
  induction count generalizing first w with
  | zero => rfl
  | succ count ih =>
    have harena : w.forget.arena = w.arena := rfl
    rw [dropTables, dropTables, harena]
    cases w.arena.pop? with
    | none => rfl
    | some popped =>
      obtain ⟨name, arena⟩ := popped
      exact ih _ ((issue (b.beside ρ) (.drop name)).within { w with arena }).2

theorem release_forgets : Forgets (release (b.beside ρ)) (release b) := by
  intro w
  have hsize : w.forget.arena.size = w.arena.size := rfl
  simp only [release, within_of, hsize, dropTables_forgets]

theorem runMetric_forgets (m : Metric) (field : String) :
    Forgets (runMetric (b.beside ρ) m field) (runMetric b m field) :=
  .scope_bind fun _ => (query_forgets b _).bind fun _ => .pure _

theorem groupedBuckets_forgets (key : BucketKey) (format : Option DateFormat) :
    Forgets (groupedBuckets (b.beside ρ) key format) (groupedBuckets b key format) :=
  .scope_bind fun _ => (query_forgets b _).bind fun _ => .pure _

section Fills

/-- A way to fill tables is another one, once what is kept beside the state is forgotten. -/
def Fill.Forgets (fill' : Fill (σ × ρ)) (fill : Fill σ) : Prop :=
  ∀ parts selection, Run.Forgets (fill' parts selection) (fill parts selection)

variable {fill' : Fill (σ × ρ)} {fill : Fill σ}

theorem runBucketFilling_forgets (hfill : Fill.Forgets fill' fill) (format : Option DateFormat)
    (bucketed : String)
    {children' : Run (σ × ρ) ExecutionError (List (String × Json))}
    {children : Run σ ExecutionError (List (String × Json))}
    (hchildren : Forgets children' children) (key : Int64) :
    Forgets (runBucketFilling fill' (b.beside ρ) format bucketed children' key)
      (runBucketFilling fill b format bucketed children key) := by
  refine (checkCancelled_forgets b).bind fun _ => ?_
  refine ((hfill _ _).mapError _).bind fun _ => ?_
  refine (query_forgets b _).bind fun rows => ?_
  exact (hchildren.withScope _).bind fun results => .pure _

theorem bucketsFilling_forgets (hfill : Fill.Forgets fill' fill) (key : BucketKey)
    (format : Option DateFormat)
    {children' : Run (σ × ρ) ExecutionError (List (String × Json))}
    {children : Run σ ExecutionError (List (String × Json))}
    (hchildren : Forgets children' children) :
    Forgets (bucketsFilling fill' (b.beside ρ) c key format children')
      (bucketsFilling fill b c key format children) := by
  refine .scope_bind fun scope => ((hfill _ _).mapError _).bind fun _ => ?_
  refine (query_forgets b _).bind fun rows => ?_
  exact .mapM _ fun key => runBucketFilling_forgets b hfill format _ hchildren key

mutual

theorem Aggregation.runFilling_forgets (hfill : Fill.Forgets fill' fill) :
    ∀ a : Aggregation, Forgets (Aggregation.runFilling fill' (b.beside ρ) c a)
      (Aggregation.runFilling fill b c a)
  | .metric m field => by
    rw [Aggregation.runFilling, Aggregation.runFilling]
    exact (checkCancelled_forgets b).bind fun _ => runMetric_forgets b m field
  | .dateHistogram field interval format children => by
    have hchildren := Aggregations.runFilling_forgets hfill children
    rw [Aggregation.runFilling, Aggregation.runFilling]
    refine (checkCancelled_forgets b).bind fun _ => (Forgets.lift _).bind fun key => ?_
    split
    · exact (groupedBuckets_forgets b key format).bind fun _ => .pure _
    · exact (bucketsFilling_forgets b c hfill key format hchildren).bind fun _ => .pure _

theorem Aggregations.runFilling_forgets (hfill : Fill.Forgets fill' fill) :
    ∀ siblings : List (String × Aggregation),
      Forgets (Aggregations.runFilling fill' (b.beside ρ) c siblings)
        (Aggregations.runFilling fill b c siblings)
  | [] => by
    rw [Aggregations.runFilling, Aggregations.runFilling]
    exact .pure _
  | (name, a) :: rest => by
    rw [Aggregations.runFilling, Aggregations.runFilling]
    refine (Aggregation.runFilling_forgets hfill a).bind fun _ => ?_
    exact (Aggregations.runFilling_forgets hfill rest).bind fun _ => .pure _

end

theorem runRequestFilling_forgets (hfill : Fill.Forgets fill' fill) (r : Request) :
    Forgets (runRequestFilling fill' (b.beside ρ) c r) (runRequestFilling fill b c r) := by
  refine (Forgets.lift _).bind fun condition => ?_
  have hwalk : Forgets (walkFilling fill' (b.beside ρ) c r.aggregations _)
      (walkFilling fill b c r.aggregations (.documents c.targets c.types condition)) :=
    ((checkCancelled_forgets b).bind fun _ =>
      Aggregations.runFilling_forgets b c hfill r.aggregations).withScope _
  refine hwalk.capture.bind fun walk => (release_forgets b).capture.bind fun released => ?_
  exact (Forgets.lift _).bind fun aggregations => (Forgets.lift _).bind fun _ => .pure _

end Fills

end Beside

/-! ### Recorded calls -/

/-- A call for a temporary table. -/
structure TableCall (σ : Type) where
  /-- What the name of the table is made of. -/
  parts : List String
  /-- What fills the table. -/
  selection : Selection
  /-- The world in which the call is made. -/
  world : World σ

/-- The name of the table. -/
def TableCall.name (call : TableCall σ) : String := tempTableName call.parts

/-- The name of the table is registered when the call is made. -/
def TableCall.FindsRegistered (call : TableCall σ) : Prop :=
  call.world.arena.registered.contains call.name = true

/-- The world in which a call has been written down. -/
def World.noting (parts : List String) (selection : Selection)
    (w : World (σ × List (TableCall σ))) : World (σ × List (TableCall σ)) :=
  { w with state := (w.state.1, ⟨parts, selection, w.forget⟩ :: w.state.2) }

/-- Materialize the tables, and write the calls down. -/
def recording (b : Backend σ) : Fill (σ × List (TableCall σ)) := fun parts selection => do
  Run.change (World.noting parts selection)
  materialize (b.beside _) (tempTableName parts) selection

/-- A world in which no call has been written down. -/
def World.unrecorded (w : World σ) : World (σ × List (TableCall σ)) :=
  ⟨(w.state, []), w.scope, w.arena, w.log⟩

section Recording

variable (b : Backend σ) (c : SearchContext)

/-- A request whose calls are written down. -/
def recordedRequest (r : Request) : Run (σ × List (TableCall σ)) ExecutionError Outcome :=
  runRequestFilling (recording b) (b.beside _) c r

/-- The calls of a request from a world, the latest first. -/
def tableCalls (r : Request) (w : World σ) : List (TableCall σ) :=
  ((recordedRequest b c r).within w.unrecorded).2.state.2

theorem within_recording (parts : List String) (selection : Selection)
    (w : World (σ × List (TableCall σ))) :
    (recording b parts selection).within w =
      (materialize (b.beside _) (tempTableName parts) selection).within
        (w.noting parts selection) :=
  rfl

/-- Writing a call down changes nothing. -/
theorem recording_forgets : Fill.Forgets (recording b) (materializing b) := by
  intro parts selection w
  rw [within_recording]
  exact materialize_forgets b _ selection (w.noting parts selection)

/-- **A record changes nothing.**  The request whose calls are written down comes to what the
request comes to, and leaves its world. -/
theorem recordedRequest_forgets (r : Request) (w : World σ) :
    (runRequest b c r).within w = (((recordedRequest b c r).within w.unrecorded).1,
      ((recordedRequest b c r).within w.unrecorded).2.forget) := by
  rw [← runRequestFilling_materializing b c r]
  exact runRequestFilling_forgets b c (recording_forgets b) r w.unrecorded

end Recording

end DocSearch
