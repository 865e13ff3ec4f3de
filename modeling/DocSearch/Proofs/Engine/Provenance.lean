import DocSearch.Proofs.Engine.Failures
import DocSearch.Proofs.Engine.Serving

/-!
# Where statements read from

A walk starts with one source, and reads from it or from temporary tables.  It reads from a
temporary table only once the table is registered, and it goes on after registering a table
only if creating it has succeeded.  So however a search ends, each of its statements reads
the documents that the search is about, or a table that the same search has created before.

## Main definitions

* `Run.Proceeds` — a computation keeps an invariant until it fails.
* `World.Offers` — a statement reads the source of a walk or a registered table.
* `WalkProgress` — the steps of a walk keep an invariant until one of them fails.
* `Prepared`, `prepare` — what a search is about.
* `ReadsFrom`, `SourcedFrom` — a statement of a log, and each of them, reads from a source
  or from tables that were created earlier in the log.

## Main results

* `Aggregations.run_proceeds` — a walk keeps what its steps keep, until it fails.
* `search_sourced` — **each statement of a search reads the documents that the search is
  about**, or a table that the search has created before.
-/

namespace DocSearch

variable {σ : Type}

/-! ### Computations until they fail -/

namespace Run

variable {ε ε' α β : Type} {I : Invariant σ} {w : World σ}

/-- From one world, a computation keeps an invariant until it fails.  If it succeeds, the
invariant holds, the source that is read is the same and no name is lost; in any case there
is what survives. -/
structure Proceeds (I : Invariant σ) (w : World σ) (r : Run σ ε α) : Prop where
  /-- What holds if it succeeds. -/
  holds : ∀ a after, r.within w = (.ok a, after) →
    I.Holds after ∧ after.scope = w.scope ∧ w.arena.names ⊆ after.arena.names
  /-- What is there in any case. -/
  survives : I.Survives (r.within w).2

theorem Proceeds.of_world_eq {r : Run σ ε α} (h : (r.within w).2 = w) (hw : I.Holds w) :
    Proceeds I w r := by
  refine ⟨fun a after hafter => ?_, ?_⟩
  · obtain rfl : after = w := (congrArg Prod.snd hafter).symm.trans h
    exact ⟨hw, rfl, List.Subset.refl _⟩
  · rw [h]
    exact I.survives hw

theorem Proceeds.pure (a : α) (hw : I.Holds w) : Proceeds I w (Pure.pure a : Run σ ε α) :=
  .of_world_eq rfl hw

/-- What comes second is reached only if what comes first succeeds. -/
theorem Proceeds.bind {r : Run σ ε α} {f : α → Run σ ε β} (hr : Proceeds I w r)
    (hf : ∀ a after, r.within w = (.ok a, after) → I.Holds after → after.scope = w.scope →
      w.arena.names ⊆ after.arena.names → Proceeds I after (f a)) :
    Proceeds I w (r >>= f) := by
  cases h : r.within w with
  | mk result after =>
    cases result with
    | error e =>
      have hbind : (r >>= f).within w = (.error e, after) := by rw [within_bind, h]
      refine ⟨fun b later hlater => ?_, ?_⟩
      · rw [hbind] at hlater
        cases hlater
      · have hsurvives := hr.survives
        rw [h] at hsurvives
        rw [hbind]
        exact hsurvives
    | ok a =>
      obtain ⟨hafter, hscope, hnames⟩ := hr.holds a after h
      obtain ⟨hholds, hsurvives⟩ := hf a after h hafter hscope hnames
      have hbind : (r >>= f).within w = (f a).within after := by rw [within_bind, h]
      refine ⟨fun b later hlater => ?_, hbind ▸ hsurvives⟩
      obtain ⟨hlater, hscope', hnames'⟩ := hholds b later (hbind ▸ hlater)
      exact ⟨hlater, hscope'.trans hscope, List.Subset.trans hnames hnames'⟩

theorem Proceeds.read_bind {g : World σ → α} {f : α → Run σ ε β} (hf : Proceeds I w (f (g w))) :
    Proceeds I w (Run.read g >>= f) := by
  have hbind : (Run.read g >>= f).within w = (f (g w)).within w := by rw [within_bind, within_read]
  exact ⟨fun b after hafter => hf.holds b after (hbind ▸ hafter), hbind ▸ hf.survives⟩

theorem Proceeds.mapError {f : ε → ε'} {r : Run σ ε α} (hr : Proceeds I w r) :
    Proceeds I w (r.mapError f) := by
  refine ⟨fun a after hafter => ?_, hr.survives⟩
  rw [within_mapError, Prod.mk.injEq, Steps.mapError_eq_ok] at hafter
  exact hr.holds a after (Prod.ext hafter.1 hafter.2)

/-- The same step for each of a list, in worlds in which nothing has been lost. -/
theorem Proceeds.mapM {f : α → Run σ ε β} {as : List α} (hw : I.Holds w)
    (hf : ∀ a ∈ as, ∀ after : World σ, I.Holds after → after.scope = w.scope →
      w.arena.names ⊆ after.arena.names → Proceeds I after (f a)) :
    Proceeds I w (as.mapM f) := by
  induction as generalizing w with
  | nil => exact .pure [] hw
  | cons a as ih =>
    rw [List.mapM_cons]
    refine (hf a List.mem_cons_self w hw rfl (List.Subset.refl _)).bind ?_
    intro b after _ hafter hscope hnames
    refine (ih hafter fun a' ha' later hlater hscope' hnames' => ?_).bind fun _ later _ hlater _ _ =>
      .pure _ hlater
    exact hf a' (List.mem_cons_of_mem _ ha') later hlater (hscope'.trans hscope)
      (List.Subset.trans hnames hnames')

/-- A scope is left with the source with which it was entered. -/
theorem Proceeds.withScope {r : Run σ ε α} {scope : Source}
    (hr : Proceeds I { w with scope } r) : Proceeds I w (DocSearch.withScope scope r) := by
  refine ⟨fun a after hafter => ?_, I.survives_scope _ hr.survives⟩
  rw [within_withScope, Prod.mk.injEq] at hafter
  obtain ⟨hresult, rfl⟩ := hafter
  obtain ⟨hholds, -, hnames⟩ := hr.holds a (r.within { w with scope }).2 (Prod.ext hresult rfl)
  exact ⟨I.holds_scope _ hholds, rfl, hnames⟩

end Run

/-! ### Walks until they fail -/

/-- Whether a statement fills a table with a selection that is written out, of which it is
not known what it reads. -/
def Statement.isVerbatim : Statement → Bool
  | create _ (.verbatim _) => true
  | _ => false

/-- A statement reads from the source of a walk or from registered tables. -/
structure World.Offers (base : Source) (w : World σ) (s : Statement) : Prop where
  /-- Documents are those of the source. -/
  documents : ∀ source ∈ s.source?, source.reads = none → source = base
  /-- Temporary tables are registered. -/
  temporary : ∀ name ∈ s.reads, name ∈ w.arena.names
  /-- Nothing else is read. -/
  known : s.isVerbatim = false

/-- The source in scope is that of a walk or a registered table. -/
def World.InScope (base : Source) (w : World σ) : Prop :=
  w.scope = base ∨ ∃ name ∈ w.arena.names, w.scope = .table name

/-- The steps of a walk keep an invariant until one of them fails. -/
structure WalkProgress (b : Backend σ) (base : Source) (I : Invariant σ) : Prop where
  /-- Statements that read. -/
  read : ∀ {w : World σ} {s : Statement}, I.Holds w → w.Offers base s → s.isCommand = false →
    Run.Proceeds I w (issue b s)
  /-- Temporary tables, which are registered if they are filled. -/
  fill : ∀ {w : World σ} {name : String} {selection : Selection}, I.Holds w →
    w.Offers base (.create name selection) → Run.Proceeds I w (materialize b name selection) ∧
      ∀ after, (materialize b name selection).within w = (.ok (), after) → name ∈ after.arena.names

section Walks

open Run

variable {b : Backend σ} {c : SearchContext} {base : Source} {I : Invariant σ} {w : World σ}

theorem World.InScope.of_names {after : World σ} (h : w.InScope base)
    (hscope : after.scope = w.scope) (hnames : w.arena.names ⊆ after.arena.names) :
    after.InScope base := by
  rw [InScope, hscope]
  exact h.imp_right fun ⟨name, hname, htable⟩ => ⟨name, hnames hname, htable⟩

/-- A statement over the source in scope. -/
theorem World.InScope.offers (h : w.InScope base) (hbase : base.reads = none) {s : Statement}
    (hsource : s.source? = some w.scope) (hreads : s.reads = w.scope.reads)
    (hknown : s.isVerbatim = false) : w.Offers base s := by
  refine ⟨fun source hs hnone => ?_, fun name hname => ?_, hknown⟩
  · obtain rfl : w.scope = source := Option.some.inj (hsource.symm.trans hs)
    rcases h with h | ⟨name, -, h⟩
    · exact h
    · rw [h] at hnone
      cases hnone
  · rw [hreads] at hname
    rcases h with h | ⟨other, hother, h⟩
    · rw [h, hbase] at hname
      cases hname
    · rw [h] at hname
      cases hname
      exact hother

theorem query_proceeds (hI : WalkProgress b base I) (hw : I.Holds w) {s : Statement}
    (hs : w.Offers base s) (hread : s.isCommand = false) : Proceeds I w (query b s) :=
  (hI.read hw hs hread).mapError

theorem checkCancelled_proceeds (hw : I.Holds w) : Proceeds I w (checkCancelled b) :=
  .of_world_eq rfl hw

theorem runBucket_proceeds (hI : WalkProgress b base I) (hw : I.Holds w)
    (format : Option DateFormat) {bucketed : String} (hbucketed : bucketed ∈ w.arena.names)
    {children : Run σ ExecutionError (List (String × Json))}
    (hchildren : ∀ w : World σ, I.Holds w → w.InScope base → Proceeds I w children) (key : Int64) :
    Proceeds I w (runBucket b format bucketed children key) := by
  refine (checkCancelled_proceeds hw).bind fun _ w' _ hw' _ hnames => ?_
  have hoffers : w'.Offers base (.create (bucketTableName bucketed key) (.bucket bucketed key)) := by
    refine ⟨fun source hsource => (nomatch hsource), fun name hname => ?_, rfl⟩
    cases hname
    exact hnames hbucketed
  obtain ⟨hfill, hregistered⟩ := hI.fill hw' hoffers
  refine hfill.mapError.bind fun _ filled hfilled hholds _ _ => ?_
  rw [within_mapError, Prod.mk.injEq, Steps.mapError_eq_ok] at hfilled
  have hname : bucketTableName bucketed key ∈ filled.arena.names :=
    hregistered filled (Prod.ext hfilled.1 hfilled.2)
  have hcount : filled.Offers base (.count (.table (bucketTableName bucketed key))) := by
    refine ⟨fun source hsource hnone => ?_, fun name hname' => ?_, rfl⟩
    · cases hsource
      cases hnone
    · cases hname'
      exact hname
  refine (query_proceeds hI hholds hcount rfl).bind fun rows sized _ hsized _ hnames' => ?_
  refine Proceeds.bind (.withScope ?_) fun _ after _ hafter _ _ => .pure _ hafter
  exact hchildren _ (I.holds_scope _ hsized) (.inr ⟨_, hnames' hname, rfl⟩)

theorem materializedBuckets_proceeds (hI : WalkProgress b base I) (hbase : base.reads = none)
    (hw : I.Holds w) (hscope : w.InScope base) (key : BucketKey) (format : Option DateFormat)
    {children : Run σ ExecutionError (List (String × Json))}
    (hchildren : ∀ w : World σ, I.Holds w → w.InScope base → Proceeds I w children) :
    Proceeds I w (materializedBuckets b c key format children) := by
  refine .read_bind ?_
  have hoffers : w.Offers base (.create (bucketedTableName b.dialect c w.scope key)
      (.bucketed key w.scope)) := hscope.offers hbase rfl rfl rfl
  obtain ⟨hfill, hregistered⟩ := hI.fill hw hoffers
  refine hfill.mapError.bind fun _ filled hfilled hholds _ _ => ?_
  rw [within_mapError, Prod.mk.injEq, Steps.mapError_eq_ok] at hfilled
  have hname := hregistered filled (Prod.ext hfilled.1 hfilled.2)
  have hbuckets : filled.Offers base (.buckets (bucketedTableName b.dialect c w.scope key)) := by
    refine ⟨fun source hsource => (nomatch hsource), fun name hname' => ?_, rfl⟩
    cases hname'
    exact hname
  refine (query_proceeds hI hholds hbuckets rfl).bind fun rows listed _ hlisted _ hnames => ?_
  exact .mapM hlisted fun k _ after hafter _ hnames' =>
    runBucket_proceeds hI hafter format (hnames' (hnames hname)) hchildren k

mutual

/-- **A walk keeps what its steps keep**, until it fails. -/
theorem Aggregation.run_proceeds (hI : WalkProgress b base I) (hbase : base.reads = none) :
    ∀ (a : Aggregation) (w : World σ), I.Holds w → w.InScope base → Proceeds I w (a.run b c)
  | .metric m field, w, hw, hscope => by
    rw [Aggregation.run]
    refine (checkCancelled_proceeds hw).bind fun _ w' _ hw' heq hnames => .read_bind ?_
    have hoffers := (hscope.of_names heq hnames).offers hbase (s := .metric m field w'.scope) rfl rfl rfl
    exact (query_proceeds hI hw' hoffers rfl).bind fun _ after _ hafter _ _ => .pure _ hafter
  | .dateHistogram field interval format children, w, hw, hscope => by
    have hchildren := fun w' => Aggregations.run_proceeds hI hbase children w'
    rw [Aggregation.run]
    refine (checkCancelled_proceeds hw).bind fun _ w' _ hw' heq hnames => ?_
    refine (Proceeds.of_world_eq rfl hw').bind fun key w'' _ hw'' heq' hnames' => ?_
    have hscope'' : w''.InScope base :=
      hscope.of_names (heq'.trans heq) (List.Subset.trans hnames hnames')
    split
    · refine Proceeds.bind (.read_bind ?_) fun _ after _ hafter _ _ => .pure _ hafter
      have hoffers := hscope''.offers hbase (s := .histogram key w''.scope) rfl rfl rfl
      exact (query_proceeds hI hw'' hoffers rfl).bind fun _ after _ hafter _ _ => .pure _ hafter
    · exact (materializedBuckets_proceeds hI hbase hw'' hscope'' key format hchildren).bind
        fun _ after _ hafter _ _ => .pure _ hafter

theorem Aggregations.run_proceeds (hI : WalkProgress b base I) (hbase : base.reads = none) :
    ∀ (siblings : List (String × Aggregation)) (w : World σ), I.Holds w → w.InScope base →
      Proceeds I w (Aggregations.run b c siblings)
  | [], w, hw, _ => by
    rw [Aggregations.run]
    exact .pure _ hw
  | (name, a) :: rest, w, hw, hscope => by
    rw [Aggregations.run]
    refine (Aggregation.run_proceeds hI hbase a w hw hscope).bind fun _ w' _ hw' heq hnames => ?_
    refine (Aggregations.run_proceeds hI hbase rest w' hw' (hscope.of_names heq hnames)).bind ?_
    exact fun _ after _ hafter _ _ => .pure _ hafter

end

end Walks

/-! ### Logs -/

/-- A table was created in a log. -/
def Created (log : List Issued) (name : String) : Prop :=
  ∃ selection, ⟨.create name selection, none⟩ ∈ log

/-- A statement reads documents from one source only, and temporary tables only that were
created in the log before it. -/
structure ReadsFrom (base : Source) (earlier : List Issued) (s : Statement) : Prop where
  /-- Documents are those of the source. -/
  documents : ∀ source ∈ s.source?, source.reads = none → source = base
  /-- Temporary tables were created. -/
  temporary : ∀ name ∈ s.reads, Created earlier name
  /-- Nothing else is read. -/
  known : s.isVerbatim = false

/-- Each statement of a log, the latest first, reads documents from one source only, and
temporary tables only that were created before it. -/
def SourcedFrom (base : Source) (log : List Issued) : Prop :=
  ∀ i earlier, i :: earlier <:+ log → ReadsFrom base earlier i.statement

variable {base : Source} {log : List Issued}

theorem sourcedFrom_nil : SourcedFrom base [] := fun _ _ h => nomatch List.suffix_nil.mp h

theorem SourcedFrom.cons {i : Issued} (h : SourcedFrom base log)
    (hi : ReadsFrom base log i.statement) : SourcedFrom base (i :: log) := by
  intro j earlier hsuffix
  rcases List.suffix_cons_iff.mp hsuffix with heq | hsuffix
  · obtain ⟨rfl, rfl⟩ := List.cons.inj heq
    exact hi
  · exact h j earlier hsuffix

theorem Created.cons {i : Issued} {name : String} (h : Created log name) : Created (i :: log) name :=
  h.imp fun _ hmem => List.mem_cons_of_mem _ hmem

/-- What drops a table reads nothing. -/
theorem readsFrom_drop (name : String) : ReadsFrom base log (.drop name) :=
  ⟨fun _ h => (nomatch h), fun _ h => (nomatch h), rfl⟩

/-- Statements read from one source only or from tables that were created before.  Until
something fails, the tables that are registered were created. -/
def sourced (base : Source) : Invariant σ where
  Holds w := SourcedFrom base w.log ∧ w.arena.Consistent ∧ ∀ name ∈ w.arena.names, Created w.log name
  Survives w := SourcedFrom base w.log ∧ w.arena.Consistent
  survives h := ⟨h.1, h.2.1⟩
  holds_scope _ h := h
  survives_scope _ h := h

section Sourced

open Run

variable {b : Backend σ} {w : World σ}

/-- Nothing has been read in a world in which nothing has happened. -/
theorem sourced_of_fresh (hw : w.arena = Arena.empty) (hlog : w.log = []) (scope : Source) :
    (sourced base).Holds { w with scope } := by
  refine ⟨?_, ?_, fun name hname => ?_⟩
  · show SourcedFrom base w.log
    rw [hlog]
    exact sourcedFrom_nil
  · show w.arena.Consistent
    rw [hw]
    exact Arena.consistent_empty
  · rw [show World.arena _ = Arena.empty from hw] at hname
    cases hname

/-- What a walk may read was created before, as long as nothing has failed. -/
theorem World.Offers.readsFrom {s : Statement} (h : w.Offers base s) (hw : (sourced base).Holds w) :
    ReadsFrom base w.log s :=
  ⟨h.documents, fun name hname => hw.2.2 name (h.temporary name hname), h.known⟩

theorem issue_sourced {s : Statement} (hs : w.Offers base s) (hw : (sourced base).Holds w) :
    Proceeds (sourced base) w (issue b s) := by
  have hlog : SourcedFrom base (⟨s, failureOf (b.run s w.state).1⟩ :: w.log) :=
    hw.1.cons (hs.readsFrom hw)
  refine ⟨fun rows after hafter => ?_, hlog, hw.2.1⟩
  rw [within_issue, Prod.mk.injEq] at hafter
  obtain ⟨-, rfl⟩ := hafter
  exact ⟨⟨hlog, hw.2.1, fun name hname => (hw.2.2 name hname).cons⟩, rfl, List.Subset.refl _⟩

/-- A table is registered if it is filled, and then it was created. -/
theorem materialize_sourced {name : String} {selection : Selection}
    (hs : w.Offers base (.create name selection)) (hw : (sourced base).Holds w) :
    Proceeds (sourced base) w (materialize b name selection) ∧
      ∀ after, (materialize b name selection).within w = (.ok (), after) →
        name ∈ after.arena.names := by
  obtain ⟨hlog, hconsistent, hcreated⟩ := hw
  cases hname : w.arena.registered.contains name with
  | true =>
    have hwithin := within_materialize_of_registered b selection hname
    refine ⟨.of_world_eq (by rw [hwithin]) ⟨hlog, hconsistent, hcreated⟩, fun after hafter => ?_⟩
    obtain rfl : w = after := (Prod.mk.inj (hwithin.symm.trans hafter)).2
    exact (hconsistent.contains name).mp hname
  | false =>
    have hnames : (w.registering name).arena.names = name :: w.arena.names :=
      World.names_registering hname
    have hregistered : (w.registering name).arena.Consistent := hconsistent.register hname
    have hwithin := within_materialize_of_fresh b selection hname
    -- the name is registered before the table exists: what has been filled is only kept
    -- again once the statement behind the drop has succeeded
    obtain ⟨answer, state, hdrop⟩ := exists_issue b (.drop name) (w.registering name)
    rw [hdrop] at hwithin
    have hdropped : SourcedFrom base (⟨.drop name, failureOf answer⟩ :: w.log) :=
      hlog.cons (readsFrom_drop name)
    cases answer with
    | error e =>
      refine ⟨⟨fun _ after hafter => ?_, ?_⟩, fun after hafter => ?_⟩
      · exact nomatch hwithin.symm.trans hafter
      · rw [hwithin]
        exact ⟨hdropped, hregistered⟩
      · exact nomatch hwithin.symm.trans hafter
    | ok rows =>
      simp only at hwithin
      obtain ⟨answer, created, hcreate⟩ := exists_issue b (.create name selection)
        { w.registering name with state, log := ⟨.drop name, failureOf (.ok rows)⟩ :: w.log }
      rw [show (w.registering name).log = w.log from rfl, hcreate] at hwithin
      -- the selection reads from tables created before the walk came here, not from `name`
      have hreads : ReadsFrom base (⟨.drop name, failureOf (.ok rows)⟩ :: w.log)
          (.create name selection) :=
        ⟨hs.documents, fun table htable => (hcreated table (hs.temporary table htable)).cons,
          hs.known⟩
      have hfilled := hdropped.cons (i := ⟨.create name selection, failureOf answer⟩) hreads
      refine ⟨⟨fun _ after hafter => ?_, ?_⟩, fun after hafter => ?_⟩
      · obtain ⟨hanswer, rfl⟩ := Prod.mk.inj (hwithin.symm.trans hafter)
        obtain ⟨rows', rfl, -⟩ := Steps.map_eq_ok.mp hanswer
        refine ⟨⟨hfilled, hregistered, fun table htable => ?_⟩, rfl, ?_⟩
        · rw [show _ = name :: w.arena.names from hnames, List.mem_cons] at htable
          rcases htable with rfl | htable
          · exact ⟨selection, List.mem_cons_self⟩
          · exact (hcreated table htable).cons.cons
        · rw [show _ = name :: w.arena.names from hnames]
          exact List.subset_cons_self _ _
      · rw [hwithin]
        exact ⟨hfilled, hregistered⟩
      · obtain ⟨-, rfl⟩ := Prod.mk.inj (hwithin.symm.trans hafter)
        rw [show _ = name :: w.arena.names from hnames]
        exact List.mem_cons_self

theorem walkProgress_sourced : WalkProgress b base (sourced base) where
  read := fun hw hs _ => issue_sourced hs hw
  fill := fun hw hs => materialize_sourced hs hw

end Sourced

/-! ### What a search is about -/

/-- What a search comes to before it issues any statement. -/
structure Prepared where
  /-- The request. -/
  request : Request
  /-- The indices with their tables. -/
  targets : List Target
  /-- What the documents have to meet. -/
  condition : Option Condition

/-- The documents that a search is about. -/
def Prepared.source (p : Prepared) (types : List String) : Source :=
  .documents p.targets types p.condition

/-- What the aggregations of a search need to know. -/
def Prepared.context (p : Prepared) (mappings : Mappings) (call : SearchCall) : SearchContext :=
  ⟨p.targets, call.types, mappings, p.request.source⟩

/-- Read the request, find the targets and compile the query. -/
def prepare (b : Backend σ) (options : RequestOptions) (call : SearchCall) (state : σ) :
    Except ExecutionError Prepared := do
  let r ← readRequest options call.body
  let targets ← ((resolveTargets b call.indices).within (World.start state)).1
  let condition ← r.predicate.compile.mapError (.search ∘ .query)
  return ⟨r, targets, condition⟩

section Prepared

variable {b : Backend σ} {c : SearchContext} {mappings : Mappings} {options : RequestOptions}
  {call : SearchCall} {state : σ} {p : Prepared}

theorem prepare_eq_ok : prepare b options call state = .ok p ↔
    readRequest options call.body = .ok p.request ∧
      ((resolveTargets b call.indices).within (World.start state)).1 = .ok p.targets ∧
      p.request.predicate.compile = .ok p.condition := by
  simp only [prepare, Steps.bind_eq_ok, Steps.mapError_eq_ok, Steps.pure_eq_ok]
  constructor
  · rintro ⟨r, hr, targets, htargets, condition, hcondition, rfl⟩
    exact ⟨hr, htargets, hcondition⟩
  · rintro ⟨hr, htargets, hcondition⟩
    exact ⟨_, hr, _, htargets, _, hcondition, rfl⟩

/-- A request comes to the condition that its query is compiled to. -/
theorem condition_of_runRequest {r : Request} {w after : World σ} {condition : Option Condition}
    {found : Outcome} (hr : r.predicate.compile = .ok condition)
    (h : (runRequest b c r).within w = (.ok found, after)) : found.condition = condition := by
  have hresult := runRequest_result b c r w
  rw [h] at hresult
  obtain ⟨compiled, hcompiled, hfound⟩ := Steps.bind_eq_ok.mp hresult.symm
  obtain ⟨results, -, hfound⟩ := Steps.bind_eq_ok.mp hfound
  obtain ⟨_, -, hfound⟩ := Steps.bind_eq_ok.mp hfound
  cases hfound
  rw [hr] at hcompiled
  exact (Except.ok.inj hcompiled).symm

/-- What is left to prepare once the request is read and its targets are found. -/
theorem prepare_of_targets {r : Request} {targets : List Target}
    (hr : readRequest options call.body = .ok r)
    (htargets : ((resolveTargets b call.indices).within (World.start state)).1 = .ok targets) :
    prepare b options call state =
      (r.predicate.compile.mapError (.search ∘ .query)).map (⟨r, targets, ·⟩) := by
  rw [prepare, hr, htargets]
  rfl

/-- A search whose preparation fails does nothing. -/
theorem search_of_unprepared {e : ExecutionError} (h : prepare b options call state = .error e) :
    (search b mappings options call).within (World.start state) = (.error e, World.start state) := by
  cases hr : readRequest options call.body with
  | error e' =>
    rw [prepare, hr] at h
    cases h
    exact search_within_of_unread hr
  | ok r =>
    cases htargets : ((resolveTargets b call.indices).within (World.start state)).1 with
    | error e' =>
      rw [prepare, hr, htargets] at h
      cases h
      exact search_within_of_unresolved hr htargets
    | ok targets =>
      rw [prepare_of_targets hr htargets] at h
      cases hcompile : r.predicate.compile with
      | ok condition =>
        rw [hcompile] at h
        cases h
      | error e' =>
        rw [hcompile] at h
        cases h
        -- the query is compiled when the search is under way, but before anything is issued
        let c : SearchContext := ⟨targets, call.types, mappings, r.source⟩
        let start : World σ := { state, scope := .documents targets call.types none }
        have hrequest : (runRequest b c r).within start = (.error (.search (.query e')), start) := by
          refine Prod.ext ?_ (runRequest_world_of_error b c start hcompile)
          rw [runRequest_result, hcompile]
          rfl
        exact search_within_of_failed hr htargets hrequest

/-- A search that is prepared runs its request, then asks for its hits. -/
theorem search_of_prepared (h : prepare b options call state = .ok p) :
    (search b mappings options call).within (World.start state) =
      match (runRequest b (p.context mappings call) p.request).within
        { World.start state with scope := .documents p.targets call.types none } with
      | (.ok found, after) => (finish b (p.context mappings call) call p.request found).within
          { after with scope := (World.start state).scope }
      | (.error e, after) => (.error e, { after with scope := (World.start state).scope }) := by
  obtain ⟨hr, htargets, -⟩ := prepare_eq_ok.mp h
  exact search_within hr htargets

end Prepared

/-! ### Searches -/

section Searches

open Run

variable {b : Backend σ} {c : SearchContext}

/-- A statement over the source itself. -/
theorem readsFrom_self {s : Statement} (hbase : base.reads = none) (hsource : s.source? = some base)
    (hreads : s.reads = base.reads) (hknown : s.isVerbatim = false) : ReadsFrom base log s := by
  refine ⟨fun source hs _ => Option.some.inj (hs.symm.trans hsource), fun name hname => ?_, hknown⟩
  rw [hreads, hbase] at hname
  cases hname

theorem issue_keeps_sourced {s : Statement} (hs : ∀ log, ReadsFrom base log s) :
    Keeps (fun w : World σ => SourcedFrom base w.log) (issue b s) :=
  fun w => ⟨rfl, fun hw => hw.cons (hs w.log)⟩

/-- The walk of a request and the clean-up behind it. -/
theorem runRequest_sourced {r : Request} {condition : Option Condition} {w : World σ}
    (hr : r.predicate.compile = .ok condition) (hw : w.arena = Arena.empty) (hlog : w.log = []) :
    SourcedFrom (.documents c.targets c.types condition) ((runRequest b c r).within w).2.log := by
  let base : Source := .documents c.targets c.types condition
  have hexecute : Proceeds (sourced base) { w with scope := base }
      (Aggregations.execute b c r.aggregations) :=
    (checkCancelled_proceeds (sourced_of_fresh hw hlog base)).bind fun _ after _ hafter hscope hnames =>
      Aggregations.run_proceeds walkProgress_sourced rfl r.aggregations after hafter
        (World.InScope.of_names (.inl rfl) hscope hnames)
  have hwalk : SourcedFrom base (walkEnd b c r w).log := by
    rw [walkEnd, hr]
    exact hexecute.withScope.survives.1
  have hdrops : DropsKeep b fun w => SourcedFrom base w.log := by
    intro w name arena _ hlog
    exact hlog.cons (readsFrom_drop name)
  rw [runRequest_world b c w hr]
  exact (release_keeps hdrops _).2 hwalk

theorem finish_keeps_sourced (call : SearchCall) (r : Request) (found : Outcome) :
    Keeps (fun w : World σ =>
      SourcedFrom (.documents c.targets c.types found.condition) w.log) (finish b c call r found) := by
  refine Keeps.bind checkCancelled_keeps fun _ => Keeps.bind ?_ fun hits => Keeps.pure _
  refine fun w => KeepsAt.mapError (Keeps.bind (issue_keeps_sourced fun _ => ?_) (fun rows => ?_) w)
  · exact readsFrom_self rfl rfl rfl rfl
  · split
    · exact Keeps.pure _
    · refine Keeps.bind (issue_keeps_sourced fun _ => readsFrom_self rfl rfl rfl rfl) fun page => ?_
      exact Keeps.bind (Keeps.lift _) fun hits => Keeps.pure _

/-- **Each statement of a search reads the documents that the search is about**, or a
temporary table that the search itself has created before.  A search that is about nothing,
since its preparation fails, issues no statement. -/
theorem search_sourced (b : Backend σ) (mappings : Mappings) (options : RequestOptions)
    (call : SearchCall) (state : σ) :
    let run := (search b mappings options call).within (World.start state)
    match prepare b options call state with
    | .error e => run = (.error e, World.start state)
    | .ok p => SourcedFrom (p.source call.types) run.2.log := by
  intro run
  cases hp : prepare b options call state with
  | error e => exact search_of_unprepared hp
  | ok p =>
    have hrun : run = _ := search_of_prepared hp
    have hsourced := runRequest_sourced (b := b) (c := p.context mappings call)
      (w := { World.start state with scope := .documents p.targets call.types none })
      (prepare_eq_ok.mp hp).2.2 rfl rfl
    rw [hrun]
    cases hrequest : (runRequest b (p.context mappings call) p.request).within
        { World.start state with scope := .documents p.targets call.types none } with
    | mk result after =>
      rw [hrequest] at hsourced
      cases result with
      | error e => exact hsourced
      | ok found =>
        -- the hits are read under the condition that the request came to
        have hkeeps := (finish_keeps_sourced (b := b) (c := p.context mappings call) call p.request
          found { after with scope := (World.start state).scope }).2
        rw [condition_of_runRequest (prepare_eq_ok.mp hp).2.2 hrequest] at hkeeps
        exact hkeeps hsourced

end Searches

end DocSearch
