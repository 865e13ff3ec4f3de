import DocSearch.Engine.Replay
import DocSearch.Proofs.Engine.Walk

/-!
# Walks over a script

A script answers its statements one after the other, whatever they ask for.  So what a
computation comes to follows from the parts of the script that it uses up: a command takes
the next number, a statement that reads rows takes the next answer, and each of them may be
the one on which the search is cancelled.  A search that was cancelled stays cancelled.

## Main definitions

* `Replay.Calm` — a script by which nothing fails and nothing is cancelled.

## Main results

* `Replay.within_command`, `Replay.within_query` — what one statement comes to.
* `Replay.Calm.execute` — a histogram with one bucket.
* `Replay.within_emptyHistogram` — a histogram over no rows, cancelled on any statement.
-/

namespace DocSearch

open Members Run

namespace Replay

variable (d : Dialect) {w : World Replay} {replies : List (List Row)}

/-! ### Statements -/

/-- A command that does not fail. -/
theorem within_command {s : Statement} (hs : s.isCommand = true)
    (h : w.state.commands ∉ w.state.failingCommands) :
    (issue (backend d) s).within w = (.ok [], { w with
      state := { w.state.arrive with commands := w.state.commands + 1 }
      log := ⟨s, none⟩ :: w.log }) := by
  simp [within_issue, backend, run, hs, arrive, h, failureOf]

/-- A command that fails. -/
theorem within_failing_command {s : Statement} (hs : s.isCommand = true)
    (h : w.state.commands ∈ w.state.failingCommands) :
    let cause := StoreError.invalidIndexName ("execute " ++ toString w.state.commands)
    (issue (backend d) s).within w = (.error cause, { w with
      state := { w.state.arrive with commands := w.state.commands + 1 }
      log := ⟨s, some cause⟩ :: w.log }) := by
  simp [within_issue, backend, run, hs, arrive, h, failureOf]

/-- A statement that reads rows, given the answer to it. -/
theorem within_query {s : Statement} {rows : List Row} {later : List (Except StoreError (List Row))}
    (hs : s.isCommand = false) (h : w.state.replies = .ok rows :: later) :
    (DocSearch.query (backend d) s).within w = (.ok rows, { w with
      state := { w.state.arrive with replies := later }
      log := ⟨s, none⟩ :: w.log }) := by
  simp [DocSearch.query, within_mapError, within_issue, backend, run, hs, arrive, h, failureOf]

/-- A statement that reads rows once the answers are used up. -/
theorem within_query_of_nil {s : Statement} (hs : s.isCommand = false)
    (h : w.state.replies = []) :
    (DocSearch.query (backend d) s).within w =
      (.ok [], { w with state := w.state.arrive, log := ⟨s, none⟩ :: w.log }) := by
  simp [DocSearch.query, within_mapError, within_issue, backend, run, hs, arrive, h, failureOf]

/-! ### Walks that nothing disturbs -/

/-- A script by which nothing fails and nothing is cancelled, with answers still to give. -/
structure Calm (r : Replay) (replies : List (List Row)) : Prop where
  /-- The answers. -/
  replies_eq : r.replies = replies.map .ok
  /-- No command fails. -/
  failing_eq : r.failingCommands = []
  /-- The search is not cancelled. -/
  cancelled_eq : r.cancelled = false
  /-- It is not going to be. -/
  cancelAt_eq : r.cancelAt = none

/-- A statement does not cancel the search. -/
theorem Calm.cancelled_arrive {r : Replay} (h : r.Calm replies) : r.arrive.cancelled = false := by
  simp [arrive, h.cancelled_eq, h.cancelAt_eq]

theorem Calm.check (h : w.state.Calm replies) :
    (checkCancelled (backend d)).within w = (.ok (), w) := by
  have hcancelled : (backend d).cancelled w.state = false := h.cancelled_eq
  rw [checkCancelled, Run.within_of, hcancelled]
  rfl

theorem Calm.command {s : Statement} (hs : s.isCommand = true) (h : w.state.Calm replies) :
    ∃ after, (issue (backend d) s).within w = (.ok [], after) ∧ after.state.Calm replies := by
  have hsucceeds : w.state.commands ∉ w.state.failingCommands := by
    rw [h.failing_eq]
    exact List.not_mem_nil
  exact ⟨_, within_command d hs hsucceeds, h.replies_eq, h.failing_eq, h.cancelled_arrive,
    h.cancelAt_eq⟩

theorem Calm.query {s : Statement} {rows : List Row} (hs : s.isCommand = false)
    (h : w.state.Calm (rows :: replies)) :
    ∃ after, (DocSearch.query (backend d) s).within w = (.ok rows, after) ∧
      after.state.Calm replies := by
  have hreplies : w.state.replies = .ok rows :: replies.map .ok := by
    rw [h.replies_eq, List.map_cons]
  exact ⟨_, within_query d hs hreplies, rfl, h.failing_eq, h.cancelled_arrive, h.cancelAt_eq⟩

theorem Calm.materialize (name : String) (selection : Selection) (h : w.state.Calm replies) :
    ∃ after, (DocSearch.materialize (backend d) name selection).within w = (.ok (), after) ∧
      after.state.Calm replies := by
  cases hname : w.arena.registered.contains name with
  | true => exact ⟨w, within_materialize_of_registered _ selection hname, h⟩
  | false =>
    have hregistered : (w.registering name).state.Calm replies := h
    obtain ⟨dropped, hdrop, hdropped⟩ := hregistered.command d (s := .drop name) rfl
    obtain ⟨created, hcreate, hcreated⟩ := hdropped.command d (s := .create name selection) rfl
    refine ⟨created, ?_, hcreated⟩
    rw [within_materialize_of_fresh _ selection hname, hdrop]
    simp only [hcreate]
    rfl

/-- A count of the values of a field, given the answer to it. -/
theorem Calm.count {c : SearchContext} {n : Int64} (child field : String)
    (h : w.state.Calm [[[.integer n]]]) :
    ∃ after, (Aggregations.run (backend d) c [(child, .metric .valueCount field)]).within w =
      (.ok [(child, .obj [("value", .ofInt n.toInt)])], after) := by
  have hcheck := h.check d
  obtain ⟨after, hquery, -⟩ := h.query d (s := .metric .valueCount field w.scope) rfl
  refine ⟨after, ?_⟩
  rw [Aggregations.run, Aggregation.run]
  simp only [Run.within_bind, hcheck, runMetric, Run.within_read, hquery, Run.within_pure,
    Aggregations.run]
  rfl

/-- A bucket, given the answer to the count of its rows and what its children give. -/
theorem Calm.runBucket (format : Option DateFormat) (bucketed : String) (k : Int64) {n : Int64}
    {children : Run Replay ExecutionError (List (String × Json))} {results : List (String × Json)}
    (h : w.state.Calm ([[.integer n]] :: replies))
    (hchildren : ∀ w' : World Replay, w'.state.Calm replies →
      ∃ after, children.within w' = (.ok results, after)) :
    ∃ after, (DocSearch.runBucket (backend d) format bucketed children k).within w =
      (.ok (.obj (putAll (bucketMembers format k n) results)), after) := by
  have hcheck := h.check d
  obtain ⟨filled, hfill, hfilled⟩ :=
    h.materialize d (bucketTableName bucketed k) (.bucket bucketed k)
  obtain ⟨sized, hcount, hsized⟩ :=
    hfilled.query d (s := .count (.table (bucketTableName bucketed k))) rfl
  obtain ⟨after, hresults⟩ :=
    hchildren { sized with scope := .table (bucketTableName bucketed k) } hsized
  refine ⟨{ after with scope := sized.scope }, ?_⟩
  simp only [DocSearch.runBucket, Run.within_bind, hcheck, Run.within_mapError, hfill,
    Steps.mapError_ok, hcount, Run.within_withScope, hresults, Run.within_pure]
  rfl

/-- A histogram with one bucket and one child, which counts the values of a field. -/
theorem Calm.execute {c : SearchContext} {key : BucketKey} {field : String} {interval : Interval}
    (hkey : bucketKey c field interval = .ok key) (child counted : String)
    (h : w.state.Calm [[[.integer 0]], [[.integer 1]], [[.integer 1]]]) :
    ∃ after, (Aggregations.execute (backend d) c
        [("h", .dateHistogram field interval none
          [(child, .metric .valueCount counted)])]).within w =
      (.ok [("h", .obj [("buckets", .arr [.obj (putAll
        [("key", .ofInt 0), ("doc_count", .ofInt 1)] [(child, .obj [("value", .ofInt 1)])])])])],
        after) := by
  have hcheck := h.check d
  let bucketed := bucketedTableName d c w.scope key
  obtain ⟨filled, hfill, hfilled⟩ := h.materialize d bucketed (.bucketed key w.scope)
  obtain ⟨listed, hkeys, hlisted⟩ := hfilled.query d (s := .buckets bucketed) rfl
  obtain ⟨after, hbucket⟩ := hlisted.runBucket d none bucketed 0
    fun w' hw' => hw'.count d (c := c) child counted
  have hbuckets : (materializedBuckets (backend d) c key none
      (Aggregations.run (backend d) c [(child, .metric .valueCount counted)])).within w =
        (.ok [.obj (putAll [("key", .ofInt 0), ("doc_count", .ofInt 1)]
          [(child, .obj [("value", .ofInt 1)])])], after) := by
    have hfill' : ((DocSearch.materialize (backend d) bucketed (.bucketed key w.scope)).mapError
        ExecutionError.aggregation).within w = (.ok (), filled) := by
      rw [Run.within_mapError, hfill]
      rfl
    have heach : ([0].mapM (DocSearch.runBucket (backend d) none bucketed
        (Aggregations.run (backend d) c [(child, .metric .valueCount counted)]))).within listed =
          (.ok [.obj (putAll [("key", .ofInt 0), ("doc_count", .ofInt 1)]
            [(child, .obj [("value", .ofInt 1)])])], after) := by
      rw [List.mapM_cons, Run.within_bind, hbucket]
      rfl
    rw [materializedBuckets]
    exact Run.within_bind_eq_ok.mpr ⟨w.scope, w, rfl, Run.within_bind_eq_ok.mpr ⟨(), filled, hfill',
      Run.within_bind_eq_ok.mpr ⟨[[.integer 0]], listed, hkeys, heach⟩⟩⟩
  have hnil : Aggregations.run (backend d) c [] = pure [] := by rw [Aggregations.run]
  refine ⟨after, ?_⟩
  rw [Aggregations.execute, Aggregations.run, Aggregation.run]
  simp only [Run.within_bind, hcheck, hkey, Run.within_lift, List.isEmpty_cons,
    Bool.false_eq_true, if_false, hbuckets, Run.within_pure, hnil]

/-! ### A histogram over no rows -/

/-- A histogram with children over no rows: its table is filled and has no keys.  The flag
is not looked at on the way. -/
theorem within_emptyHistogram {c : SearchContext} {key : BucketKey} {field : String}
    {interval : Interval} (hkey : bucketKey c field interval = .ok key)
    (child : String × Aggregation) (indices : List String) {failing : List Nat}
    (cancelAt : Option Nat) (scope : Source) (h₀ : 0 ∉ failing) (h₁ : 1 ∉ failing) :
    let name := bucketedTableName d c scope key
    let script : Replay := { indices, failingCommands := failing, cancelAt }
    (Aggregation.run (backend d) c (.dateHistogram field interval none [child])).within
        { state := script, scope } =
      (.ok (.obj [("buckets", .arr [])]),
        { state := { script.arrive.arrive.arrive with commands := 2 }
          scope
          arena := (Arena.empty.register name).2
          log := [⟨.buckets name, none⟩, ⟨.create name (.bucketed key scope), none⟩,
            ⟨.drop name, none⟩] }) := by
  intro name script
  let start : World Replay := { state := script, scope }
  -- the world behind the two commands that fill the table
  let filled : World Replay :=
    { state := { script.arrive.arrive with commands := 2 }
      scope
      arena := (Arena.empty.register name).2
      log := [⟨.create name (.bucketed key scope), none⟩, ⟨.drop name, none⟩] }
  have hfresh : start.arena.registered.contains name = false := by simp [start, Arena.empty]
  have hfill : (materialize (backend d) name (.bucketed key scope)).within start =
      (.ok (), filled) := by
    have hdrop := within_command d (s := .drop name) (w := start.registering name) rfl h₀
    rw [within_materialize_of_fresh _ _ hfresh, hdrop]
    simp only
    rw [within_command d rfl h₁]
    rfl
  have hfilled : ((materialize (backend d) name (.bucketed key scope)).mapError
      ExecutionError.aggregation).within start = (.ok (), filled) := by
    rw [within_mapError, hfill]
    rfl
  have hlisted := within_query_of_nil d (s := .buckets name) (w := filled) rfl rfl
  have hbuckets : (materializedBuckets (backend d) c key none
      (Aggregations.run (backend d) c [child])).within start = (.ok [], _) :=
    within_bind_eq_ok.mpr ⟨scope, start, rfl, within_bind_eq_ok.mpr ⟨(), filled, hfilled,
      within_bind_eq_ok.mpr ⟨[], _, hlisted, rfl⟩⟩⟩
  have hkeyed : (Run.lift (bucketKey c field interval)).within start = (.ok key, start) := by
    rw [within_lift, hkey]
  rw [Aggregation.run]
  exact within_bind_eq_ok.mpr ⟨(), start, rfl, within_bind_eq_ok.mpr ⟨key, start, hkeyed,
    within_bind_eq_ok.mpr ⟨[], _, hbuckets, rfl⟩⟩⟩

end Replay

end DocSearch
