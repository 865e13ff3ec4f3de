import DocSearch.Engine.Replay
import DocSearch.Proofs.Engine.Statement
import DocSearch.Proofs.Engine.Targets
import DocSearch.Proofs.Engine.Walk
import DocSearch.Proofs.Steps
import DocSearch.Store.Answer

/-!
# Every statement of a search is aligned

A search takes the names of tables from two places only: from the database, for the
indices it is asked to search, and from digests.  If the database names the tables of
indices by the rule for such names, then all tables that a search ever mentions have bare
names, and each statement that it issues has one placeholder for each value.

## Main definitions

* `Backend.NamesTables` — a database names the tables of indices by the rule.
* `World.IsBare` — all tables that a world mentions have bare names.

## Main results

* `search_isBare` — a search mentions tables with bare names only.
* `search_aligned` — every statement of a search has its values in order.
-/

namespace DocSearch

open Sql

variable {σ : Type} {b : Backend σ}

/-! ### Targets -/

/-- A database whose tables of indices are named by the rule for such names. -/
def Backend.NamesTables (b : Backend σ) : Prop :=
  ∀ index state table, b.tableFor index state = .ok (some table) →
    Index.tableName index = .ok table

theorem Replay.namesTables (d : Dialect) : (Replay.backend d).NamesTables := by
  intro index state table h
  have htable : Replay.tableFor index state = .ok (some table) := h
  unfold Replay.tableFor at htable
  rw [Steps.bind_eq_ok] at htable
  obtain ⟨name, hname, htable⟩ := htable
  split at htable
  · cases htable
  · rw [Steps.pure_eq_ok] at htable
    split at htable
    · cases htable
      exact hname
    · cases htable

theorem Session.namesTables : Session.backend.NamesTables := by
  intro index state table h
  have htable : state.database.tableFor index = .ok (some table) := h
  unfold Database.tableFor at htable
  rw [Steps.bind_eq_ok] at htable
  obtain ⟨name, hname, htable⟩ := htable
  rw [Steps.pure_eq_ok] at htable
  split at htable
  · cases htable
    exact hname
  · cases htable

/-- **The targets of a search have bare tables**, and finding them changes nothing. -/
theorem resolveTargets_within (hb : b.NamesTables) {indices : List String} {w after : World σ}
    {targets : List Target} (h : (resolveTargets b indices).within w = (.ok targets, after)) :
    after = w ∧ ∀ t ∈ targets, Bare t.table := by
  have htargets : ((resolveTargets b indices).within w).1 = .ok targets := by rw [h]
  rw [within_resolveTargets] at h
  refine ⟨(Prod.mk.inj h).2.symm, fun t ht => ?_⟩
  exact bare_of_tableName (hb t.index w.state t.table (tableFor_of_resolveTargets htargets t ht))

/-! ### Steps -/

/-- All tables that a world mentions have bare names. -/
structure World.IsBare (w : World σ) : Prop where
  scope : w.scope.IsBare
  names : ∀ name ∈ w.arena.names, Bare name
  log : ∀ i ∈ w.log, i.statement.IsBare

namespace World.IsBare

variable {w : World σ}

theorem logging (hw : w.IsBare) (later : List Issued)
    (hlater : ∀ i ∈ later, i.statement.IsBare) (state : σ) :
    { w with state, log := later ++ w.log }.IsBare := by
  refine ⟨hw.scope, hw.names, fun i hi => ?_⟩
  rcases List.mem_append.mp hi with hi | hi
  · exact hlater i hi
  · exact hw.log i hi

theorem issue (hw : w.IsBare) {s : Statement} (hs : s.IsBare) :
    ((issue b s).within w).2.IsBare := by
  obtain ⟨answer, state, h⟩ := exists_issue b s w
  rw [h]
  refine hw.logging [⟨s, failureOf answer⟩] (fun i hi => ?_) state
  rw [List.mem_singleton.mp hi]
  exact hs

theorem registering (hw : w.IsBare) {name : String} (hname : Bare name) :
    (w.registering name).IsBare := by
  refine ⟨hw.scope, fun other hother => ?_, hw.log⟩
  rw [World.registering, Arena.register] at hother
  split at hother
  · exact hw.names other hother
  · rcases List.mem_cons.mp hother with rfl | hother
    · exact hname
    · exact hw.names other hother

theorem materialize (hw : w.IsBare) {name : String} (hname : Bare name) {selection : Selection}
    (hselection : selection.IsBare) : ((materialize b name selection).within w).2.IsBare := by
  have hdrop : ∀ failure, (Issued.mk (.drop name) failure).statement.IsBare := fun _ => hname
  rcases materialize_cases b name selection w with
    ⟨-, h⟩ | ⟨-, state, e, h⟩ | ⟨-, state, failure, h⟩
  · rw [h]
    exact hw
  · rw [h]
    refine (hw.registering hname).logging [⟨.drop name, some e⟩] (fun i hi => ?_) state
    rw [List.mem_singleton.mp hi]
    exact hdrop _
  · rw [h]
    refine (hw.registering hname).logging [⟨.create name selection, failure⟩, ⟨.drop name, none⟩]
      (fun i hi => ?_) state
    rcases List.mem_cons.mp hi with rfl | hi
    · exact ⟨hname, hselection⟩
    · rw [List.mem_singleton.mp hi]
      exact hdrop _

/-- The clean-up drops tables that are registered. -/
theorem drop (hw : w.IsBare) {name : String} {arena : Arena}
    (hpop : w.arena.pop? = some (name, arena)) :
    ((DocSearch.issue b (.drop name)).within { w with arena }).2.IsBare := by
  unfold Arena.pop? at hpop
  cases hnames : w.arena.names with
  | nil =>
    rw [hnames] at hpop
    cases hpop
  | cons newest others =>
    rw [hnames] at hpop
    cases hpop
    have hrest : { w with arena := ⟨others, w.arena.registered.erase name⟩ }.IsBare := by
      refine ⟨hw.scope, fun other hother => hw.names other ?_, hw.log⟩
      rw [hnames]
      exact List.mem_cons_of_mem _ hother
    have hname : Bare name := hw.names name (by rw [hnames]; exact List.mem_cons_self)
    exact hrest.issue hname

theorem enter (hw : w.IsBare) {scope : Source} (hscope : scope.IsBare) :
    { w with scope }.IsBare :=
  ⟨hscope, hw.names, hw.log⟩

end World.IsBare

theorem WalkRead.isBare {scope : Source} (hscope : scope.IsBare) {s : Statement}
    (hs : WalkRead scope s) : s.IsBare := by
  cases hs with
  | metric m field => exact hscope
  | histogram key => exact hscope
  | buckets parts => exact bare_tempTableName parts
  | count parts => exact bare_tempTableName parts

theorem WalkFill.isBare {scope : Source} (hscope : scope.IsBare) {selection : Selection}
    (hs : WalkFill scope selection) : selection.IsBare := by
  cases hs with
  | bucketed key => exact hscope
  | bucket parts key => exact bare_tempTableName parts

/-- **The steps of a walk mention bare tables**, if its scope does. -/
theorem bare_invariant : WalkInvariant b World.IsBare where
  read := fun hs hw => hw.issue (hs.isBare hw.scope)
  fill := fun parts hs hw => hw.materialize (bare_tempTableName parts) (hs.isBare hw.scope)
  enter := fun parts hw => hw.enter (bare_tempTableName parts)
  leave := fun hw hafter => hafter.enter hw.scope

/-! ### Searches -/

open Run

theorem runRequest_isBare {c : SearchContext} (hc : ∀ t ∈ c.targets, Bare t.table) (r : Request) :
    Keeps World.IsBare (runRequest b c r) :=
  runRequest_keeps bare_invariant (fun hpop hw => hw.drop hpop) fun _ _ hw => hw.enter hc

theorem issue_isBare {s : Statement} (hs : s.IsBare) : Keeps World.IsBare (issue b s) := by
  intro w
  exact ⟨rfl, fun hw => hw.issue hs⟩

theorem fetchHits_isBare {c : SearchContext} (hc : ∀ t ∈ c.targets, Bare t.table)
    (condition : Option Condition) (sort : List SortClause) (size offset : Int64) :
    Keeps World.IsBare (fetchHits b c condition sort size offset) := by
  have hsource : (Source.documents c.targets c.types condition).IsBare := hc
  rw [fetchHits]
  refine Keeps.bind (issue_isBare hsource) fun rows => ?_
  split
  · exact Keeps.pure _
  · refine Keeps.bind (issue_isBare hsource) fun page => ?_
    exact Keeps.bind (Keeps.lift _) fun hits => Keeps.pure _

/-- **A search mentions tables with bare names only**, whatever it finds and wherever it
ends. -/
theorem search_isBare (hb : b.NamesTables) (mappings : Mappings) (options : RequestOptions)
    (call : SearchCall) : Keeps World.IsBare (search b mappings options call) := by
  rw [search]
  refine Keeps.bind (Keeps.lift _) fun r => ?_
  intro w
  have htargets : KeepsAt World.IsBare (resolveTargets b call.indices) w :=
    KeepsAt.read_bind (Keeps.bind (Keeps.lift _) (fun _ => Keeps.lift _) w)
  refine htargets.bind fun targets after h _ => ?_
  -- from here on the tables of the indices are known to be bare
  obtain ⟨rfl, hbare⟩ := resolveTargets_within hb h
  refine KeepsAt.bind ?_ fun found after _ _ => ?_
  · exact KeepsAt.withScope (fun hw => hw.enter hbare) (runRequest_isBare hbare r)
      fun after hw hafter => hafter.enter hw.scope
  · refine Keeps.bind checkCancelled_keeps (fun _ => ?_) after
    refine Keeps.bind (fun w => ?_) fun hits => Keeps.pure _
    exact KeepsAt.mapError (fetchHits_isBare hbare found.condition r.sort _ _ w)

theorem World.isBare_start (state : σ) : (World.start state).IsBare where
  scope := by
    intro t ht
    cases ht
  names := by
    intro name hname
    cases hname
  log := by
    intro i hi
    cases hi

/-- **Every statement of a search is aligned.**  Whatever the database answers, each
statement that is issued has as many placeholders as values, leaves every literal it
enters, and is given to PostgreSQL with `$1`, `$2` and so on in the place of its
placeholders and with nothing else changed, so that the `k`-th value is the one that `$k`
names. -/
theorem search_aligned (b : Backend σ) (hb : b.NamesTables) (mappings : Mappings)
    (options : RequestOptions) (call : SearchCall) (state : σ) :
    ∀ i ∈ ((search b mappings options call).within (World.start state)).2.log,
      (i.statement.render b.dialect).Aligned := by
  intro i hi
  have hbare : ((search b mappings options call).within (World.start state)).2.IsBare :=
    (search_isBare hb mappings options call _).2 (World.isBare_start state)
  have hslotted : (i.statement.render b.dialect).IsSlotted :=
    Statement.isSlotted_render b.dialect (hbare.log i hi)
  exact hslotted.aligned

/-- A search for a field whose name holds a quote and a question mark. -/
theorem search_aligned_quoted_name :
    let b := Replay.backend .postgres
    let call : SearchCall := {
      body := "\x7b\"query\": \x7b\"term\": \x7b\"it's?\": \"x\"\x7d\x7d\x7d"
      indices := ["p"] }
    let log := ((search b .empty {} call).within (World.start { indices := ["p"] })).2.log
    b.NamesTables ∧ log.length = 2 ∧ ∀ i ∈ log, (i.statement.render b.dialect).Aligned :=
  ⟨Replay.namesTables .postgres, by decide +kernel,
    search_aligned _ (Replay.namesTables .postgres) _ _ _ _⟩

end DocSearch
