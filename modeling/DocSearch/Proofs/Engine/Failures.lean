import DocSearch.Proofs.Engine.Cleanup
import DocSearch.Proofs.Engine.Targets

/-!
# Failures of statements are reported

A walk stops at the first statement that fails, and the cause of this failure is what it
fails with.  The clean-up goes on past failures and keeps the first one.  A failure of the
walk comes before one of the clean-up, and after either of them no hits are asked for.  So
a search that gives an answer has issued no statement that failed, and the failure of any
other search says which statement failed first, and why.

## Main definitions

* `Run.Reports` — a computation ends with its first statement that fails.
* `walkResult` — what the walk of a request gives.
* `Reported` — how the statements of a search account for its result.

## Main results

* `Aggregations.run_reports` — a walk reports the failures of its statements.
* `dropTables_failure` — the clean-up keeps the first failure.
* `search_reports` — a search reports the first failure among its statements.
-/

namespace DocSearch

/-! ### Computations that report -/

namespace Run

variable {σ ε ε' α β : Type} {wrap : StoreError → ε}

/-- All statements of a list, the latest first, have succeeded but perhaps the latest,
whose failure is then the result. -/
def EndsIn (wrap : StoreError → ε) (result : Except ε α) : List Issued → Prop
  | [] => True
  | i :: earlier =>
    (∀ j ∈ earlier, j.failure = none) ∧ ∀ e, i.failure = some e → result = .error (wrap e)

theorem EndsIn.of_ok {issued : List Issued} {a : α} (h : EndsIn wrap (.ok a) issued) :
    ∀ i ∈ issued, i.failure = none := by
  cases issued with
  | nil =>
    intro i hi
    cases hi
  | cons j earlier =>
    obtain ⟨hearlier, hlatest⟩ := h
    intro i hi
    rcases List.mem_cons.mp hi with rfl | hi
    · cases hfailure : i.failure with
      | none => rfl
      | some e => cases hlatest e hfailure
    · exact hearlier i hi

/-- More statements behind some that have all succeeded. -/
theorem EndsIn.append {result : Except ε α} {later earlier : List Issued}
    (hlater : EndsIn wrap result later) (hearlier : ∀ i ∈ earlier, i.failure = none) :
    EndsIn wrap result (later ++ earlier) := by
  cases later with
  | nil =>
    cases earlier with
    | nil => trivial
    | cons i earlier =>
      refine ⟨fun j hj => hearlier j (List.mem_cons_of_mem _ hj), fun e he => ?_⟩
      rw [hearlier i List.mem_cons_self] at he
      cases he
  | cons i later =>
    obtain ⟨hbefore, hlatest⟩ := hlater
    refine ⟨fun j hj => ?_, hlatest⟩
    rcases List.mem_append.mp hj with hj | hj
    · exact hbefore j hj
    · exact hearlier j hj

/-- A statement that fails is the latest one, and its failure is the result. -/
theorem EndsIn.of_failed {result : Except ε α} {issued : List Issued}
    (h : EndsIn wrap result issued) {i : Issued} (hi : i ∈ issued) {e : StoreError}
    (he : i.failure = some e) :
    result = .error (wrap e) ∧
      ∃ earlier, issued = i :: earlier ∧ ∀ j ∈ earlier, j.failure = none := by
  cases issued with
  | nil => cases hi
  | cons j earlier =>
    obtain ⟨hearlier, hlatest⟩ := h
    rcases List.mem_cons.mp hi with rfl | hi
    · exact ⟨hlatest e he, earlier, rfl, hearlier⟩
    · rw [hearlier i hi] at he
      cases he

theorem EndsIn.mapError {f : ε → ε'} {result : Except ε α} {issued : List Issued}
    (h : EndsIn wrap result issued) : EndsIn (f ∘ wrap) (result.mapError f) issued := by
  cases issued with
  | nil => trivial
  | cons i earlier =>
    refine ⟨h.1, fun e he => ?_⟩
    rw [h.2 e he]
    rfl

/-- A computation ends with its first statement that fails, and the failure of this
statement is its result. -/
def Reports (wrap : StoreError → ε) (r : Run σ ε α) : Prop :=
  ∀ w, ∃ issued, (r.within w).2.log = issued ++ w.log ∧ EndsIn wrap (r.within w).1 issued

/-- A computation that issues no statement. -/
theorem Reports.of_log_eq {r : Run σ ε α} (h : ∀ w, (r.within w).2.log = w.log) :
    Reports wrap r := fun w => ⟨[], h w, trivial⟩

theorem Reports.pure (a : α) : Reports wrap (Pure.pure a : Run σ ε α) := .of_log_eq fun _ => rfl

theorem Reports.lift (x : Except ε α) : Reports wrap (Run.lift x : Run σ ε α) :=
  .of_log_eq fun _ => rfl

theorem Reports.read (f : World σ → α) : Reports wrap (Run.read f : Run σ ε α) :=
  .of_log_eq fun _ => rfl

/-- What comes second is reached only if no statement has failed before. -/
theorem Reports.bind {x : Run σ ε α} {f : α → Run σ ε β} (hx : Reports wrap x)
    (hf : ∀ a, Reports wrap (f a)) : Reports wrap (x >>= f) := by
  intro w
  obtain ⟨issued, hlog, hends⟩ := hx w
  rw [within_bind]
  cases h : x.within w with
  | mk result after =>
    rw [h] at hlog hends
    cases result with
    | error e =>
      refine ⟨issued, hlog, ?_⟩
      cases issued with
      | nil => trivial
      | cons i earlier =>
        refine ⟨hends.1, fun e' he' => ?_⟩
        cases hends.2 e' he'
        rfl
    | ok a =>
      obtain ⟨later, hlater, hends'⟩ := hf a after
      refine ⟨later ++ issued, ?_, hends'.append hends.of_ok⟩
      show ((f a).within after).2.log = _
      rw [hlater, hlog, List.append_assoc]

theorem Reports.mapError {r : Run σ ε α} (hr : Reports wrap r) (f : ε → ε') :
    Reports (f ∘ wrap) (r.mapError f) := by
  intro w
  obtain ⟨issued, hlog, hends⟩ := hr w
  exact ⟨issued, hlog, hends.mapError⟩

theorem Reports.withScope {r : Run σ ε α} (hr : Reports wrap r) (scope : Source) :
    Reports wrap (DocSearch.withScope scope r) :=
  fun w => hr { w with scope }

end Run

open Run

/-! ### Walks -/

section Walks

variable {σ : Type} {b : Backend σ} {c : SearchContext}

theorem issue_reports (s : Statement) : Reports id (issue b s) := by
  intro w
  obtain ⟨answer, state, h⟩ := exists_issue b s w
  rw [h]
  refine ⟨[⟨s, failureOf answer⟩], rfl, ?_⟩
  show EndsIn id answer [⟨s, failureOf answer⟩]
  refine ⟨fun j hj => (nomatch hj), fun e he => ?_⟩
  cases answer with
  | ok rows => cases he
  | error e' =>
    cases he
    rfl

theorem query_reports (s : Statement) : Reports ExecutionError.aggregation (query b s) :=
  (issue_reports s).mapError ExecutionError.aggregation

theorem checkCancelled_reports : Reports ExecutionError.aggregation (checkCancelled b) :=
  .of_log_eq fun _ => rfl

theorem materialize_reports (name : String) (selection : Selection) :
    Reports ExecutionError.aggregation ((materialize b name selection).mapError .aggregation) := by
  suffices h : Reports id (materialize b name selection) from
    h.mapError ExecutionError.aggregation
  rw [materialize]
  refine Reports.bind (.of_log_eq fun _ => rfl) fun fresh => ?_
  cases fresh with
  | false => exact .pure _
  | true =>
    exact (issue_reports _).bind fun _ => (issue_reports _).bind fun _ => .pure _

/-- Each step of a walk reports. -/
theorem walkLaw_reports : WalkLaw b c (Reports ExecutionError.aggregation) where
  pure := Reports.pure
  bind := Reports.bind
  enter := fun scope hr => hr.withScope scope
  scope := Reports.read _
  check := checkCancelled_reports
  key := fun _ _ => Reports.lift _
  read := query_reports
  fill := materialize_reports

/-- **A walk ends with its first statement that fails**, and the cause is what it
reports. -/
theorem Aggregations.run_reports (siblings : List (String × Aggregation)) :
    Reports ExecutionError.aggregation (Aggregations.run b c siblings) :=
  walkLaw_reports.aggregations siblings

/-- What the walk of a request gives. -/
def walkResult (b : Backend σ) (c : SearchContext) (r : Request) (w : World σ) :
    Except ExecutionError (List (String × Json)) :=
  match r.predicate.compile with
  | .ok condition =>
    ((withScope (.documents c.targets c.types condition)
      (Aggregations.execute b c r.aggregations)).within w).1
  | .error e => .error (.search (.query e))

theorem walk_reports (r : Request) (w : World σ) :
    ∃ issued, (walkEnd b c r w).log = issued ++ w.log ∧
      EndsIn ExecutionError.aggregation (walkResult b c r w) issued := by
  rw [walkEnd, walkResult]
  cases r.predicate.compile with
  | error e => exact ⟨[], rfl, trivial⟩
  | ok condition => exact (walkLaw_reports.execute r.aggregations).withScope _ w

theorem fetchHits_reports (condition : Option Condition) (sort : List SortClause)
    (size offset : Int64) : Reports id (fetchHits b c condition sort size offset) := by
  rw [fetchHits]
  refine (issue_reports _).bind fun rows => ?_
  split
  · exact .pure _
  · refine (issue_reports _).bind fun page => ?_
    exact (Reports.lift _).bind fun hits => .pure _

end Walks

/-! ### The clean-up -/

section Cleanup

variable {σ : Type}

/-- The first failure among statements, the earliest first. -/
def firstFailure (issued : List Issued) : Option StoreError := issued.findSome? (·.failure)

theorem firstFailure_eq_none_iff {issued : List Issued} :
    firstFailure issued = none ↔ ∀ i ∈ issued, i.failure = none := by
  rw [firstFailure, List.findSome?_eq_none_iff]

/-- **The clean-up goes on past failures and keeps the first one.** -/
theorem dropTables_failure (b : Backend σ) {names : List String} {w : World σ}
    (first : Option StoreError) (hnames : w.arena.names = names) :
    ∃ drops : List Issued,
      (dropTables b names.length first w).2.log = drops.reverse ++ w.log ∧
      drops.map (·.statement) = names.map .drop ∧
      (dropTables b names.length first w).1 = first.or (firstFailure drops) := by
  induction names generalizing first w with
  | nil => exact ⟨[], rfl, rfl, (Option.or_none).symm⟩
  | cons name names ih =>
    obtain ⟨answer, state, hdrop⟩ := dropTables_cons b hnames names.length first
    rw [List.length_cons, hdrop]
    obtain ⟨drops, hlog, hdrops, hfirst⟩ := ih
      (w := { w with
        state
        arena := ⟨names, w.arena.registered.erase name⟩
        log := ⟨.drop name, failureOf answer⟩ :: w.log })
      (first.or (failureOf answer)) rfl
    refine ⟨⟨.drop name, failureOf answer⟩ :: drops, ?_, ?_, ?_⟩
    · rw [hlog, List.reverse_cons, List.append_assoc]
      rfl
    · rw [List.map_cons, List.map_cons, hdrops]
    · rw [hfirst, Option.or_assoc]
      congr 1
      simp only [firstFailure, List.findSome?_cons]
      cases failureOf answer <;> rfl

/-- The clean-up fails with the first failure among its drops. -/
theorem release_failure (b : Backend σ) (w : World σ) :
    ∃ drops : List Issued,
      ((release b).within w).2.log = drops.reverse ++ w.log ∧
      drops.map (·.statement) = w.arena.names.map .drop ∧
      ((release b).within w).1 =
        match firstFailure drops with
        | some e => .error e
        | none => .ok () := by
  obtain ⟨drops, hlog, hdrops, hfirst⟩ := dropTables_failure b (w := w) none rfl
  refine ⟨drops, hlog, hdrops, ?_⟩
  rw [Option.none_or] at hfirst
  rw [← hfirst]
  rfl

/-- What a request gives: the failure of its walk, or else that of the clean-up. -/
theorem runRequest_result (b : Backend σ) (c : SearchContext) (r : Request) (w : World σ) :
    ((runRequest b c r).within w).1 = (do
      let condition ← r.predicate.compile.mapError (.search ∘ .query)
      let results ← walkResult b c r w
      let _ ← ((release b).within (walkEnd b c r w)).1.mapError .aggregation
      return ⟨condition, results⟩) := by
  rw [runRequest, Run.within_bind, walkResult, walkEnd]
  cases hr : r.predicate.compile with
  | error e => rfl
  | ok condition =>
    simp only [Steps.mapError_ok, Run.within_lift]
    rw [Run.within_bind, Run.within_capture]
    simp only
    rw [Run.within_bind, Run.within_capture]
    simp only
    cases ((withScope (.documents c.targets c.types condition)
      (Aggregations.execute b c r.aggregations)).within w).1 with
    | error e => rfl
    | ok results =>
      rw [Run.within_bind, Run.within_lift]
      simp only
      rw [Run.within_bind, Run.within_lift]
      cases ((release b).within _).1 <;> rfl

/-- A request whose walk fails, or else its clean-up. -/
theorem runRequest_within_of_failed {b : Backend σ} {c : SearchContext} {r : Request}
    {w after behind : World σ} {condition : Option Condition} {e : ExecutionError}
    {walked : Except ExecutionError (List (String × Json))} {released : Except StoreError Unit}
    (hr : r.predicate.compile = .ok condition)
    (hwalk : (Aggregations.execute b c r.aggregations).within
      { w with scope := .documents c.targets c.types condition } = (walked, after))
    (hrelease : (release b).within { after with scope := w.scope } = (released, behind))
    (hfails : walked = .error e ∨
      ∃ results cause, walked = .ok results ∧ released = .error cause ∧ e = .aggregation cause) :
    (runRequest b c r).within w = (.error e, behind) := by
  have hend := walkEnd_of_execute hr hwalk
  have hresult : walkResult b c r w = walked := by
    rw [walkResult, hr]
    simp only [within_withScope, hwalk]
  refine Prod.ext ?_ ?_
  · rw [runRequest_result, hr, hend, hresult, hrelease]
    rcases hfails with rfl | ⟨results, cause, rfl, rfl, rfl⟩ <;> rfl
  · rw [runRequest_world b c w hr, hend, hrelease]

/-- A request asks its walk, then the clean-up: what both issue, and the result from both. -/
theorem runRequest_reports (b : Backend σ) (c : SearchContext) (r : Request) {w : World σ}
    (hw : w.arena = Arena.empty) :
    ∃ walk cleanup : List Issued,
      (walkEnd b c r w).log = walk ++ w.log ∧
      ((runRequest b c r).within w).2.log = cleanup.reverse ++ walk ++ w.log ∧
      cleanup.map (·.statement) = (walkEnd b c r w).arena.names.map .drop ∧
      EndsIn ExecutionError.aggregation (walkResult b c r w) walk ∧
      (∀ e, walkResult b c r w = .error e → ((runRequest b c r).within w).1 = .error e) ∧
      (∀ results, walkResult b c r w = .ok results →
        (∀ e, firstFailure cleanup = some e →
          ((runRequest b c r).within w).1 = .error (.aggregation e)) ∧
        ∀ outcome, ((runRequest b c r).within w).1 = .ok outcome →
          firstFailure cleanup = none) := by
  obtain ⟨walk, hwalk, hends⟩ := walk_reports (b := b) (c := c) r w
  obtain ⟨drops, hlog, hdrops, hrelease⟩ := release_failure b (walkEnd b c r w)
  have hresult := runRequest_result b c r w
  cases hr : r.predicate.compile with
  | error e =>
    -- nothing is issued before the query is compiled
    have hwalkEnd : walkEnd b c r w = w := by rw [walkEnd, hr]
    have hwalkResult : walkResult b c r w = .error (.search (.query e)) := by rw [walkResult, hr]
    rw [runRequest_world_of_error b c w hr, hresult, hr, hwalkEnd, hwalkResult, hw]
    refine ⟨[], [], rfl, rfl, rfl, trivial, fun e' he' => ?_, fun results h => by cases h⟩
    cases he'
    rfl
  | ok condition =>
    rw [runRequest_world b c w hr, hresult, hr, hrelease]
    refine ⟨walk, drops, hwalk, ?_, hdrops, hends, fun e he => ?_, fun results hok => ?_⟩
    · rw [hlog, hwalk, List.append_assoc]
    · rw [he]
      rfl
    · rw [hok]
      refine ⟨fun e he => ?_, fun outcome houtcome => ?_⟩
      · rw [he]
        rfl
      · cases hfirst : firstFailure drops with
        | none => rfl
        | some e =>
          rw [hfirst] at houtcome
          cases houtcome

end Cleanup

/-! ### Searches -/

section Searches

variable {σ : Type} {b : Backend σ} {c : SearchContext}

/-- What a search does once its request has been run. -/
def finish (b : Backend σ) (c : SearchContext) (call : SearchCall) (r : Request)
    (found : Outcome) : Run σ ExecutionError Response := do
  checkCancelled b
  let hits ← (fetchHits b c found.condition r.sort (pageOverride call.size r.size)
    (pageOverride call.offset r.offset)).mapError .hits
  return ⟨hits, found.aggregations⟩

theorem finish_reports (call : SearchCall) (r : Request) (found : Outcome) :
    Reports ExecutionError.hits (finish b c call r found) := by
  refine Reports.bind (.of_log_eq fun _ => rfl) fun _ => ?_
  exact ((fetchHits_reports _ _ _ _).mapError ExecutionError.hits).bind fun _ => .pure _

/-- Nothing is done for a request that cannot be read. -/
theorem search_within_of_unread {mappings : Mappings} {options : RequestOptions}
    {call : SearchCall} {w : World σ} {e : ExecutionError}
    (hr : readRequest options call.body = .error e) :
    (search b mappings options call).within w = (.error e, w) := by
  rw [search, Run.within_bind, hr, Run.within_lift]

/-- Nothing is done if a target is not there. -/
theorem search_within_of_unresolved {mappings : Mappings} {options : RequestOptions}
    {call : SearchCall} {r : Request} {w : World σ} {e : ExecutionError}
    (hr : readRequest options call.body = .ok r)
    (htargets : ((resolveTargets b call.indices).within w).1 = .error e) :
    (search b mappings options call).within w = (.error e, w) := by
  have hresolve : (resolveTargets b call.indices).within w = (.error e, w) :=
    Prod.ext htargets (resolveTargets_world call.indices w)
  rw [search, Run.within_bind, hr, Run.within_lift]
  simp only
  rw [Run.within_bind, hresolve]

/-- A search whose request is read and whose targets are found. -/
theorem search_within {mappings : Mappings} {options : RequestOptions} {call : SearchCall}
    {r : Request} {targets : List Target} {w : World σ}
    (hr : readRequest options call.body = .ok r)
    (htargets : ((resolveTargets b call.indices).within w).1 = .ok targets) :
    (search b mappings options call).within w =
      match (runRequest b ⟨targets, call.types, mappings, r.source⟩ r).within
        { w with scope := .documents targets call.types none } with
      | (.ok found, after) =>
        (finish b ⟨targets, call.types, mappings, r.source⟩ call r found).within
          { after with scope := w.scope }
      | (.error e, after) => (.error e, { after with scope := w.scope }) := by
  have hresolve : (resolveTargets b call.indices).within w = (.ok targets, w) :=
    Prod.ext htargets (resolveTargets_world call.indices w)
  rw [search, Run.within_bind, hr, Run.within_lift]
  simp only
  rw [Run.within_bind, hresolve]
  simp only
  rw [Run.within_bind, Run.within_withScope]
  cases (runRequest b ⟨targets, call.types, mappings, r.source⟩ r).within
    { w with scope := .documents targets call.types none } with
  | mk result after => cases result <;> rfl

/-- A search fails like its request. -/
theorem search_within_of_failed {mappings : Mappings} {options : RequestOptions}
    {call : SearchCall} {r : Request} {targets : List Target} {w after : World σ}
    {e : ExecutionError} (hr : readRequest options call.body = .ok r)
    (htargets : ((resolveTargets b call.indices).within w).1 = .ok targets)
    (hrequest : (runRequest b ⟨targets, call.types, mappings, r.source⟩ r).within
      { w with scope := .documents targets call.types none } = (.error e, after)) :
    (search b mappings options call).within w = (.error e, { after with scope := w.scope }) := by
  rw [search_within hr htargets, hrequest]

/-- How the statements of a search account for its result, given that of its walk.  The
statements of the walk and those for the hits are the latest first, those of the clean-up
the earliest first. -/
structure Reported (walked : Except ExecutionError (List (String × Json)))
    (result : Except ExecutionError Response) (walk cleanup hits : List Issued) : Prop where
  /-- The walk ends with its first statement that fails. -/
  walk_ends : EndsIn ExecutionError.aggregation walked walk
  /-- What the walk fails with is the result, whatever the clean-up does. -/
  of_walked : ∀ e, walked = .error e → result = .error e ∧ hits = []
  /-- After a walk that succeeds, the first failure of the clean-up is the result. -/
  of_cleanup : ∀ results e, walked = .ok results → firstFailure cleanup = some e →
    result = .error (.aggregation e) ∧ hits = []
  /-- The search ends with the first statement for its hits that fails. -/
  hits_end : EndsIn ExecutionError.hits result hits
  /-- No failure is behind an answer. -/
  of_ok : ∀ response, result = .ok response →
    ∀ i ∈ hits ++ cleanup.reverse ++ walk, i.failure = none

variable {walked : Except ExecutionError (List (String × Json))} {walk cleanup hits : List Issued}

/-- Without hits, after a failure of the walk or else of the clean-up. -/
theorem Reported.of_failed {e : ExecutionError}
    (hwalk : EndsIn ExecutionError.aggregation walked walk)
    (hwalked : ∀ e', walked = .error e' → e = e')
    (hcleanup : ∀ results e', walked = .ok results → firstFailure cleanup = some e' →
      e = .aggregation e') : Reported walked (.error e) walk cleanup [] where
  walk_ends := hwalk
  of_walked := fun e' he' => ⟨congrArg Except.error (hwalked e' he'), rfl⟩
  of_cleanup := fun results e' hresults he' =>
    ⟨congrArg Except.error (hcleanup results e' hresults he'), rfl⟩
  hits_end := trivial
  of_ok := fun _ hresponse => nomatch hresponse

/-- With hits, which come only after a walk and a clean-up that succeed. -/
theorem Reported.of_finished {result : Except ExecutionError Response}
    {results : List (String × Json)} (hwalk : EndsIn ExecutionError.aggregation walked walk)
    (hwalked : walked = .ok results) (hcleanup : firstFailure cleanup = none)
    (hhits : EndsIn ExecutionError.hits result hits) :
    Reported walked result walk cleanup hits where
  walk_ends := hwalk
  of_walked := fun e he => nomatch hwalked.symm.trans he
  of_cleanup := fun _ e _ he => nomatch hcleanup.symm.trans he
  hits_end := hhits
  of_ok := by
    intro response hresponse i hi
    rw [hwalked] at hwalk
    rw [hresponse] at hhits
    rw [List.append_assoc, List.mem_append, List.mem_append, List.mem_reverse] at hi
    rcases hi with hi | hi | hi
    · exact hhits.of_ok i hi
    · exact firstFailure_eq_none_iff.mp hcleanup i hi
    · exact hwalk.of_ok i hi

/-- **A search reports the first failure among its statements**, and it gives an answer
only if there is none.  Unless the request cannot be read or a target is not there, the
statements of a search are those of its walk, then a drop for each table that the walk has
registered, then those for the hits. -/
theorem search_reports (b : Backend σ) (mappings : Mappings) (options : RequestOptions)
    (call : SearchCall) (state : σ) :
    let run := (search b mappings options call).within (World.start state)
    ((∃ e, run.1 = .error e) ∧ run.2.log = []) ∨
    ∃ r targets, readRequest options call.body = .ok r ∧
      ((resolveTargets b call.indices).within (World.start state)).1 = .ok targets ∧
      let c : SearchContext := ⟨targets, call.types, mappings, r.source⟩
      let w : World σ := { state, scope := .documents targets call.types none }
      ∃ walk cleanup hits : List Issued,
        (walkEnd b c r w).log = walk ∧
        cleanup.map (·.statement) = (walkEnd b c r w).arena.names.map .drop ∧
        run.2.log = hits ++ cleanup.reverse ++ walk ∧
        Reported (walkResult b c r w) run.1 walk cleanup hits := by
  intro run
  cases hr : readRequest options call.body with
  | error e =>
    have hrun : run = (.error e, World.start state) := search_within_of_unread hr
    rw [hrun]
    exact .inl ⟨⟨e, rfl⟩, rfl⟩
  | ok r =>
    cases htargets : ((resolveTargets b call.indices).within (World.start state)).1 with
    | error e =>
      have hrun : run = (.error e, World.start state) := search_within_of_unresolved hr htargets
      rw [hrun]
      exact .inl ⟨⟨e, rfl⟩, rfl⟩
    | ok targets =>
      refine .inr ⟨r, targets, rfl, rfl, ?_⟩
      intro c w
      obtain ⟨walk, cleanup, hwalk, hlog, hcleanup, hends, herror, hok⟩ :=
        runRequest_reports b c r (w := w) rfl
      rw [List.append_nil] at hwalk hlog
      have hrun : run = match (runRequest b c r).within w with
          | (.ok found, after) =>
            (finish b c call r found).within { after with scope := (World.start state).scope }
          | (.error e, after) => (.error e, { after with scope := (World.start state).scope }) :=
        search_within hr htargets
      cases hrequest : (runRequest b c r).within w with
      | mk result after =>
        rw [hrequest] at hrun hlog herror hok
        cases result with
        | error e =>
          -- the walk or the clean-up has failed, and no hits are asked for
          refine ⟨walk, cleanup, [], hwalk, hcleanup, by rw [hrun]; exact hlog, ?_⟩
          rw [hrun]
          exact Reported.of_failed hends (fun e' he' => Except.error.inj (herror e' he'))
            fun results e' hresults he' => Except.error.inj ((hok results hresults).1 e' he')
        | ok found =>
          obtain ⟨hits, hhits, hendsHits⟩ := finish_reports (b := b) (c := c) call r found
            { after with scope := (World.start state).scope }
          obtain ⟨results, hresults⟩ : ∃ results, walkResult b c r w = .ok results := by
            cases hwalked : walkResult b c r w with
            | ok results => exact ⟨results, rfl⟩
            | error e => exact nomatch herror e hwalked
          refine ⟨walk, cleanup, hits, hwalk, hcleanup, ?_, ?_⟩
          · rw [hrun, hhits]
            show hits ++ after.log = _
            rw [hlog, List.append_assoc]
          · rw [hrun]
            exact Reported.of_finished hends hresults ((hok results hresults).2 found rfl)
              hendsHits

end Searches

end DocSearch
