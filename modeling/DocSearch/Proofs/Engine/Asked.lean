import DocSearch.Proofs.Engine.Provenance

/-!
# What a search asks for

A search that comes to a response has asked for each aggregation of its request, then for
the number of its hits and for a page of them.  All this is asked about one source: the
documents that the search is about.  A histogram with children is asked for by filling a
table with these documents and their buckets, which is there already if a sibling has filled
it before.

## Main definitions

* `Asked` — a statement was issued.
* `Aggregation.IsAsked` — an aggregation was asked for over a source.

## Main results

* `Aggregations.run_asks` — a walk that succeeds has asked for each aggregation.
* `search_asks` — **a search that comes to a response has asked for its aggregations and its
  hits over one source**.
-/

namespace DocSearch

open Run Sql

variable {σ : Type} {b : Backend σ} {c : SearchContext} {base : Source} {log later : List Issued}

/-! ### Logs that grow -/

/-- A statement was issued. -/
def Asked (log : List Issued) (s : Statement) : Prop := ∃ i ∈ log, i.statement = s

theorem Asked.of_suffix {s : Statement} (h : Asked log s) (hlater : log <:+ later) :
    Asked later s :=
  h.imp fun _ hi => hi.imp_left fun hmem => hlater.subset hmem

theorem Created.of_suffix {name : String} (h : Created log name) (hlater : log <:+ later) :
    Created later name :=
  h.imp fun _ hmem => hlater.subset hmem

theorem Run.Reports.suffix {ε α : Type} {wrap : StoreError → ε} {r : Run σ ε α}
    (hr : Reports wrap r) (w : World σ) : w.log <:+ (r.within w).2.log := by
  obtain ⟨issued, hlog, -⟩ := hr w
  rw [hlog]
  exact List.suffix_append issued w.log

/-! ### Aggregations -/

/-- An aggregation was asked for over a source: its metric or its groups, or else a table
was filled for its buckets. -/
def Aggregation.IsAsked (d : Dialect) (c : SearchContext) (base : Source) (log : List Issued) :
    Aggregation → Prop
  | .metric m field => Asked log (.metric m field base)
  | .dateHistogram field interval _ children => ∃ key, bucketKey c field interval = .ok key ∧
      if children.isEmpty then Asked log (.histogram key base)
      else Created log (bucketedTableName d c base key)

theorem Aggregation.IsAsked.of_suffix {d : Dialect} {a : Aggregation} (h : a.IsAsked d c base log)
    (hlater : log <:+ later) : a.IsAsked d c base later := by
  cases a with
  | metric m field => exact Asked.of_suffix h hlater
  | dateHistogram field interval format children =>
    obtain ⟨key, hkey, hasked⟩ := h
    refine ⟨key, hkey, ?_⟩
    split at hasked
    case isTrue hnone =>
      rw [if_pos hnone]
      exact Asked.of_suffix hasked hlater
    case isFalse hsome =>
      rw [if_neg hsome]
      exact Created.of_suffix hasked hlater

/-- A statement that succeeds was issued behind those before it. -/
theorem issue_asks {s : Statement} {w after : World σ} {rows : List Row}
    (h : (issue b s).within w = (.ok rows, after)) : Asked after.log s ∧ w.log <:+ after.log := by
  rw [within_issue, Prod.mk.injEq] at h
  rw [← h.2]
  exact ⟨⟨_, List.mem_cons_self, rfl⟩, List.suffix_cons _ _⟩

theorem query_asks {s : Statement} {w after : World σ} {rows : List Row}
    (h : (query b s).within w = (.ok rows, after)) : Asked after.log s := by
  rw [query, within_mapError, Prod.mk.injEq, Steps.mapError_eq_ok] at h
  have hissue : (issue b s).within w = (.ok rows, after) := Prod.ext h.1 h.2
  exact (issue_asks hissue).1

theorem runMetric_asks {m : Metric} {field : String} {w after : World σ} {result : Json}
    (h : (runMetric b m field).within w = (.ok result, after)) :
    Asked after.log (.metric m field w.scope) := by
  rw [runMetric, within_bind_eq_ok] at h
  obtain ⟨scope, between, hscope, h⟩ := h
  cases hscope
  rw [within_bind_eq_ok] at h
  obtain ⟨rows, behind, hrows, h⟩ := h
  cases h
  exact query_asks hrows

theorem groupedBuckets_asks {key : BucketKey} {format : Option DateFormat} {w after : World σ}
    {buckets : List Json} (h : (groupedBuckets b key format).within w = (.ok buckets, after)) :
    Asked after.log (.histogram key w.scope) := by
  rw [groupedBuckets, within_bind_eq_ok] at h
  obtain ⟨scope, between, hscope, h⟩ := h
  cases hscope
  rw [within_bind_eq_ok] at h
  obtain ⟨rows, behind, hrows, h⟩ := h
  cases h
  exact query_asks hrows

/-- A histogram with children has its table filled before anything else. -/
theorem materializedBuckets_asks {key : BucketKey} {format : Option DateFormat}
    {children : Run σ ExecutionError (List (String × Json))}
    (hchildren : Reports ExecutionError.aggregation children) {w after : World σ}
    {buckets : List Json} (hw : (sourced base).Holds w) (hbase : base.reads = none)
    (hscope : w.InScope base)
    (h : (materializedBuckets b c key format children).within w = (.ok buckets, after)) :
    Created after.log (bucketedTableName b.dialect c w.scope key) := by
  rw [materializedBuckets, within_bind_eq_ok] at h
  obtain ⟨scope, between, hread, h⟩ := h
  cases hread
  rw [within_bind_eq_ok] at h
  obtain ⟨⟨⟩, filled, hfilled, h⟩ := h
  have hoffers : w.Offers base (.create (bucketedTableName b.dialect c w.scope key)
      (.bucketed key w.scope)) := hscope.offers hbase rfl rfl rfl
  obtain ⟨hproceeds, hregistered⟩ := materialize_sourced (b := b) hoffers hw
  rw [within_mapError, Prod.mk.injEq, Steps.mapError_eq_ok] at hfilled
  have hok : (materialize b _ (.bucketed key w.scope)).within w = (.ok (), filled) :=
    Prod.ext hfilled.1 hfilled.2
  have hcreated := (hproceeds.holds _ filled hok).1.2.2 _ (hregistered filled hok)
  have hrest := (walkLaw_reports (b := b) (c := c)).buckets format
    (bucketedTableName b.dialect c w.scope key) hchildren
  have hsuffix := hrest.suffix filled
  rw [h] at hsuffix
  exact hcreated.of_suffix hsuffix

/-- **An aggregation that succeeds was asked for** over the source in scope. -/
theorem Aggregation.run_asks {a : Aggregation} {w after : World σ} {result : Json}
    (hw : (sourced base).Holds w) (hbase : base.reads = none) (hscope : w.InScope base)
    (h : (a.run b c).within w = (.ok result, after)) : a.IsAsked b.dialect c w.scope after.log := by
  cases a with
  | metric m field =>
    rw [Aggregation.run, within_bind_eq_ok] at h
    obtain ⟨_, _, hcheck, h⟩ := h
    obtain rfl := congrArg Prod.snd hcheck
    exact runMetric_asks h
  | dateHistogram field interval format children =>
    rw [Aggregation.run, within_bind_eq_ok] at h
    obtain ⟨_, _, hcheck, h⟩ := h
    obtain rfl := congrArg Prod.snd hcheck
    rw [within_bind_eq_ok] at h
    obtain ⟨key, _, hkey, h⟩ := h
    rw [within_lift, Prod.mk.injEq] at hkey
    obtain ⟨hkey, rfl⟩ := hkey
    refine ⟨key, hkey, ?_⟩
    cases hempty : children.isEmpty with
    | true =>
      rw [hempty, if_pos rfl, within_bind_eq_ok] at h
      obtain ⟨buckets, _, hbuckets, h⟩ := h
      cases h
      rw [if_pos rfl]
      exact groupedBuckets_asks hbuckets
    | false =>
      rw [hempty, if_neg Bool.false_ne_true, within_bind_eq_ok] at h
      obtain ⟨buckets, _, hbuckets, h⟩ := h
      cases h
      rw [if_neg Bool.false_ne_true]
      exact materializedBuckets_asks (Aggregations.run_reports children) hw hbase hscope hbuckets

/-- **A walk that succeeds has asked for each aggregation** over the source in scope. -/
theorem Aggregations.run_asks {siblings : List (String × Aggregation)} {w after : World σ}
    {results : List (String × Json)} (hw : (sourced base).Holds w) (hbase : base.reads = none)
    (hscope : w.InScope base)
    (h : (Aggregations.run b c siblings).within w = (.ok results, after)) :
    ∀ s ∈ siblings, s.2.IsAsked b.dialect c w.scope after.log := by
  induction siblings generalizing w results with
  | nil => exact fun _ hs => nomatch hs
  | cons s rest ih =>
    obtain ⟨name, a⟩ := s
    rw [Aggregations.run, within_bind_eq_ok] at h
    obtain ⟨result, between, hfirst, h⟩ := h
    rw [within_bind_eq_ok] at h
    obtain ⟨others, _, hrest, h⟩ := h
    cases h
    have hasked := Aggregation.run_asks hw hbase hscope hfirst
    have hsuffix := (Aggregations.run_reports (b := b) (c := c) rest).suffix between
    rw [hrest] at hsuffix
    obtain ⟨hbetween, hsame, hnames⟩ := (Aggregation.run_proceeds (c := c) walkProgress_sourced
      hbase a w hw hscope).holds result between hfirst
    refine List.forall_mem_cons.mpr ⟨hasked.of_suffix hsuffix, fun s hs => ?_⟩
    rw [← hsame]
    exact ih hbetween (hscope.of_names hsame hnames) hrest s hs

/-! ### Searches -/

variable {mappings : Mappings} {options : RequestOptions} {call : SearchCall} {state : σ}
  {p : Prepared} {response : Response}

/-- A request that succeeds has asked for its aggregations. -/
theorem runRequest_asks {r : Request} {condition : Option Condition} {w after : World σ}
    {found : Outcome} (hr : r.predicate.compile = .ok condition) (hw : w.arena = Arena.empty)
    (hlog : w.log = []) (h : (runRequest b c r).within w = (.ok found, after)) :
    ∀ s ∈ r.aggregations,
      s.2.IsAsked b.dialect c (.documents c.targets c.types condition) after.log := by
  let base : Source := .documents c.targets c.types condition
  let start : World σ := { w with scope := base }
  have hstart : (sourced base).Holds start := sourced_of_fresh hw hlog base
  have hresult := runRequest_result b c r w
  rw [h] at hresult
  obtain ⟨_, -, hfound⟩ := Steps.bind_eq_ok.mp hresult.symm
  obtain ⟨results, hwalk, -⟩ := Steps.bind_eq_ok.mp hfound
  cases hexecute : (Aggregations.execute b c r.aggregations).within start with
  | mk walked behind =>
    rw [walkResult, hr] at hwalk
    simp only [within_withScope] at hwalk
    rw [show { w with scope := _ } = start from rfl, hexecute] at hwalk
    subst hwalk
    have hend := walkEnd_of_execute hr hexecute
    rw [Aggregations.execute, within_bind_eq_ok] at hexecute
    obtain ⟨_, _, hcheck, hrun⟩ := hexecute
    obtain rfl := congrArg Prod.snd hcheck
    have hasked := Aggregations.run_asks hstart rfl (.inl rfl) hrun
    -- the clean-up only adds to what the walk has issued
    obtain ⟨drops, hdrops, -⟩ := release_failure b (walkEnd b c r w)
    have hafter : behind.log <:+ after.log := by
      have hworld := runRequest_world b c w hr
      rw [h] at hworld
      rw [show after = _ from hworld, hdrops, hend]
      exact List.suffix_append _ _
    exact fun s hs => (hasked s hs).of_suffix hafter

/-- What comes behind the request of a search asks for its hits. -/
theorem finish_asks {r : Request} {found : Outcome} {w after : World σ}
    (h : (finish b c call r found).within w = (.ok response, after)) :
    let source := Source.documents c.targets c.types found.condition
    let size := pageOverride call.size r.size
    Asked after.log (.count source) ∧ (size ≠ 0 → c.targets ≠ [] →
      Asked after.log (.page source r.sort size (pageOverride call.offset r.offset))) := by
  rw [finish, within_bind_eq_ok] at h
  obtain ⟨_, between, -, h⟩ := h
  rw [within_bind_eq_ok] at h
  obtain ⟨hits, _, hhits, h⟩ := h
  cases h
  rw [within_mapError, Prod.mk.injEq, Steps.mapError_eq_ok] at hhits
  have hfetch : (fetchHits b c found.condition r.sort (pageOverride call.size r.size)
      (pageOverride call.offset r.offset)).within between = (.ok hits, after) :=
    Prod.ext hhits.1 hhits.2
  rw [fetchHits, within_bind_eq_ok] at hfetch
  obtain ⟨rows, counted, hcount, hpage⟩ := hfetch
  have hasked := (issue_asks hcount).1
  -- no page is asked for if none is wanted or if there is nothing to take it from
  split at hpage
  case isTrue hnone =>
    cases hpage
    exact ⟨hasked, fun hsize htargets =>
      absurd hnone (not_or.mpr ⟨hsize, fun hempty => htargets (List.isEmpty_iff.mp hempty)⟩)⟩
  case isFalse =>
    rw [within_bind_eq_ok] at hpage
    obtain ⟨shown, paged, hissue, hpage⟩ := hpage
    rw [within_bind_eq_ok] at hpage
    obtain ⟨_, _, hlift, hpage⟩ := hpage
    cases hpage
    rw [within_lift, Prod.mk.injEq] at hlift
    obtain ⟨-, rfl⟩ := hlift
    obtain ⟨hpaged, hsuffix⟩ := issue_asks hissue
    exact ⟨hasked.of_suffix hsuffix, fun _ _ => hpaged⟩

/-- **A search that comes to a response has asked for its aggregations and its hits over one
source**: the documents that it is about. -/
theorem search_asks (hp : prepare b options call state = .ok p) {after : World σ}
    (h : (search b mappings options call).within (World.start state) = (.ok response, after)) :
    let source := p.source call.types
    let size := pageOverride call.size p.request.size
    Asked after.log (.count source) ∧
      (size ≠ 0 → p.targets ≠ [] → Asked after.log
        (.page source p.request.sort size (pageOverride call.offset p.request.offset))) ∧
      ∀ s ∈ p.request.aggregations,
        s.2.IsAsked b.dialect (p.context mappings call) source after.log := by
  have hcompile := (prepare_eq_ok.mp hp).2.2
  rw [search_of_prepared hp] at h
  cases hrequest : (runRequest b (p.context mappings call) p.request).within
      { World.start state with scope := .documents p.targets call.types none } with
  | mk result between =>
    rw [hrequest] at h
    cases result with
    | error e => cases h
    | ok found =>
      have hwalked := runRequest_asks hcompile rfl rfl hrequest
      have hcondition := condition_of_runRequest hcompile hrequest
      simp only at h
      obtain ⟨hcount, hpage⟩ := finish_asks h
      rw [hcondition] at hcount hpage
      -- what the walk has asked for is still in the log when the hits have been asked for
      have hsuffix := (finish_reports (b := b) (c := p.context mappings call) call p.request
        found).suffix { between with scope := (World.start state).scope }
      rw [h] at hsuffix
      exact ⟨hcount, hpage, fun s hs => (hwalked s hs).of_suffix hsuffix⟩

end DocSearch
