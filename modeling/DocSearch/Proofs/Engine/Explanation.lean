import DocSearch.Proofs.Engine.Alignment
import DocSearch.Proofs.Engine.Asked
import DocSearch.Proofs.Engine.Cancellation

/-!
# A search and its explanation

An explanation prepares a request as a search does, and writes down what it would ask for
instead of asking for it.  So it fails exactly if the preparation of the search does, and
what it shows behind `WHERE` is the predicate of the table that the search reads from.  A
search over no index at all reads from a table without rows, in which there is no predicate.
Values are written into the text of the explanation at its question marks, so the names of the
tables must have none, as is the case if they are named by the rule.

## Main definitions

* `Underway` — what a search fails with once it is prepared.
* `Prepared.statement` — the statement that is shown.
* `Prepared.Shares` — what a search asks for is what its explanation shows.

## Main results

* `search_underway` — a search that is prepared does not fail because of its request.
* `explain_within` — an explanation is a preparation, written down.
* `explain_agrees` — **a search and its explanation fail alike**, and otherwise share one
  predicate.
-/

namespace DocSearch

open Run Sql

variable {σ : Type} {b : Backend σ} {c : SearchContext} {options : RequestOptions}
  {call : SearchCall} {state : σ} {p : Prepared}

/-! ### How computations fail -/

namespace Run

variable {ε ε' α β : Type} {P : ε → Prop}

/-- A computation fails in certain ways only. -/
def FailsOnly (P : ε → Prop) (r : Run σ ε α) : Prop := ∀ w e, (r.within w).1 = .error e → P e

theorem FailsOnly.pure (a : α) : FailsOnly P (Pure.pure a : Run σ ε α) := fun _ _ h => nomatch h

theorem FailsOnly.read (f : World σ → α) : FailsOnly P (Run.read f : Run σ ε α) :=
  fun _ _ h => nomatch h

theorem FailsOnly.lift {x : Except ε α} (hx : ∀ e, x = .error e → P e) :
    FailsOnly P (Run.lift x : Run σ ε α) := fun _ e h => hx e h

theorem FailsOnly.bind {x : Run σ ε α} {f : α → Run σ ε β} (hx : FailsOnly P x)
    (hf : ∀ a, FailsOnly P (f a)) : FailsOnly P (x >>= f) := by
  intro w e h
  rw [within_bind] at h
  cases hresult : x.within w with
  | mk result after =>
    rw [hresult] at h
    cases result with
    | error e' =>
      cases h
      exact hx w e (by rw [hresult])
    | ok a => exact hf a after e h

theorem FailsOnly.mapError {f : ε' → ε} (hf : ∀ e, P (f e)) (r : Run σ ε' α) :
    FailsOnly P (r.mapError f) := by
  intro w e h
  rw [within_mapError] at h
  cases hresult : (r.within w).1 with
  | error e' =>
    rw [hresult] at h
    cases h
    exact hf e'
  | ok a =>
    rw [hresult] at h
    cases h

theorem FailsOnly.withScope {r : Run σ ε α} (hr : FailsOnly P r) (scope : Source) :
    FailsOnly P (DocSearch.withScope scope r) := fun w e h => hr { w with scope } e h

end Run

/-! ### How searches fail -/

/-- What a search fails with once it is prepared. -/
inductive Underway : ExecutionError → Prop where
  /-- It is cancelled. -/
  | cancelled : Underway .cancelled
  /-- It is not known how the field of a histogram is read. -/
  | unmapped {e : ExecutionError} (h : Unmapped e) : Underway e
  /-- A statement of the walk or of the clean-up fails. -/
  | aggregation (cause : StoreError) : Underway (.aggregation cause)
  /-- A statement for the hits fails. -/
  | hits (cause : StoreError) : Underway (.hits cause)

theorem query_underway (s : Statement) : FailsOnly Underway (query b s) :=
  .mapError .aggregation _

theorem checkCancelled_underway : FailsOnly Underway (checkCancelled b) := by
  intro w e h
  rw [checkCancelled, within_of] at h
  split at h
  · cases h
    exact .cancelled
  · cases h

/-- **A walk does not fail because of its request**, as none of its steps does. -/
theorem walkLaw_underway : WalkLaw b c (FailsOnly Underway) where
  pure := FailsOnly.pure
  bind := FailsOnly.bind
  enter := fun scope hr => hr.withScope scope
  scope := FailsOnly.read _
  check := checkCancelled_underway
  key := fun _ _ => .lift fun _ h => .unmapped (unmapped_of_bucketKey h)
  read := query_underway
  fill := fun _ _ => .mapError .aggregation _

theorem runRequest_underway {r : Request} {condition : Option Condition} {w : World σ}
    {e : ExecutionError} (hr : r.predicate.compile = .ok condition)
    (h : ((runRequest b c r).within w).1 = .error e) : Underway e := by
  rw [runRequest_result, hr] at h
  cases hwalk : walkResult b c r w with
  | error e' =>
    rw [hwalk] at h
    cases h
    rw [walkResult, hr] at hwalk
    exact (walkLaw_underway.execute r.aggregations).withScope _ w e hwalk
  | ok results =>
    rw [hwalk] at h
    cases hrelease : ((release b).within (walkEnd b c r w)).1 with
    | error cause =>
      rw [hrelease] at h
      cases h
      exact .aggregation cause
    | ok _ =>
      rw [hrelease] at h
      cases h

theorem finish_underway (r : Request) (found : Outcome) :
    FailsOnly Underway (finish b c call r found) :=
  checkCancelled_underway.bind fun _ => (FailsOnly.mapError .hits _).bind fun _ => .pure _

/-- **A search that is prepared does not fail because of its request**, whatever the
database answers. -/
theorem search_underway {mappings : Mappings} {e : ExecutionError}
    (hp : prepare b options call state = .ok p)
    (h : ((search b mappings options call).within (World.start state)).1 = .error e) :
    Underway e := by
  rw [search_of_prepared hp] at h
  cases hrequest : (runRequest b (p.context mappings call) p.request).within
      { World.start state with scope := .documents p.targets call.types none } with
  | mk result after =>
    rw [hrequest] at h
    cases result with
    | error e' =>
      cases h
      exact runRequest_underway (prepare_eq_ok.mp hp).2.2 (by rw [hrequest])
    | ok found => exact finish_underway p.request found _ e h

/-! ### Explanations -/

namespace Prepared

/-- What the documents that a search is about have to meet, as statements spell it. -/
def predicate (d : Dialect) (p : Prepared) : Fragment := Condition.render? d p.condition

/-- The table that is shown: that of the first index. -/
def shownTable (p : Prepared) : String :=
  (p.targets.head?.map fun t => quoteIdent t.table).getD ""

/-- The order that is shown. -/
def shownOrder (d : Dialect) (p : Prepared) : String :=
  let order := SortClause.orderBy d p.request.sort
  if order.isEmpty then "" else " " ++ order

/-- What is shown of the predicate, with its values written in. -/
def shownWhere (d : Dialect) (p : Prepared) : String :=
  if (p.predicate d).isEmpty then "" else " WHERE " ++ (p.predicate d).inline

/-- The statement that is shown, before its values are written in. -/
def statement (d : Dialect) (p : Prepared) : Fragment :=
  .raw ("SELECT id, type, doc FROM " ++ p.shownTable)
    ++ (if (p.predicate d).isEmpty then p.predicate d else .raw " WHERE " ++ p.predicate d)
    ++ .raw (p.shownOrder d)

/-- The statement that is shown, with its values written into its predicate. -/
def shown (d : Dialect) (p : Prepared) : String :=
  "SELECT id, type, doc FROM " ++ p.shownTable ++ p.shownWhere d ++ p.shownOrder d

theorem isSlotted_predicate (d : Dialect) : (p.predicate d).IsSlotted :=
  Condition.isSlotted_render? d p.condition

theorem plain_shownTable (hbare : ∀ t ∈ p.targets, Bare t.table) : Plain p.shownTable := by
  unfold shownTable
  cases htargets : p.targets with
  | nil => exact plain_ofList (by decide)
  | cons t targets => exact (hbare t (by rw [htargets]; exact List.mem_cons_self)).quoteIdent.plain

theorem plain_shownOrder (d : Dialect) : Plain (p.shownOrder d) := by
  unfold shownOrder
  simp only
  split
  · exact plain_ofList (by decide)
  · exact (Statement.plain_orderBy d p.request.sort).preceded (by decide)

/-- **Values are written into the predicate of a statement that is shown**, and nowhere else. -/
theorem inline_statement (d : Dialect) (hbare : ∀ t ∈ p.targets, Bare t.table) :
    (p.statement d).inline = p.shown d := by
  have hpredicate := p.isSlotted_predicate d
  have hselect : Plain ("SELECT id, type, doc FROM " ++ p.shownTable) :=
    (plain_shownTable hbare).preceded (by decide)
  have hwhere : Plain " WHERE " := plain_ofList (by decide)
  let restriction : Fragment :=
    if (p.predicate d).isEmpty then p.predicate d else .raw " WHERE " ++ p.predicate d
  have hrestriction : restriction.IsSlotted ∧ restriction.inline = p.shownWhere d := by
    simp only [restriction, shownWhere]
    split
    case isTrue hempty =>
      rw [hpredicate.eq_empty hempty]
      exact ⟨Fragment.isSlotted_empty, Fragment.inline_raw (plain_ofList (by decide))⟩
    case isFalse =>
      exact ⟨Fragment.isSlotted_raw_append hwhere hpredicate,
        Fragment.inline_raw_append hwhere (p.predicate d)⟩
  obtain ⟨hslotted, hinline⟩ := hrestriction
  have hstatement : p.statement d =
    .raw ("SELECT id, type, doc FROM " ++ p.shownTable) ++ restriction ++ .raw (p.shownOrder d) := rfl
  rw [hstatement, (Fragment.isSlotted_raw_append hselect hslotted).inline_append_raw
    (plain_shownOrder d), Fragment.inline_raw_append hselect, hinline]
  rfl

end Prepared

/-- **An explanation is a preparation, written down**; it issues nothing. -/
theorem explain_within {index : String} (hindices : call.indices = [index]) :
    (explain b options call.body index).within (World.start state) =
      ((prepare b options call state).map fun p => (p.statement b.dialect).inline,
        World.start state) := by
  rw [explain, within_bind, within_lift]
  cases hr : readRequest options call.body with
  | error e =>
    rw [prepare, hr]
    rfl
  | ok r =>
    -- finding the targets leaves the world as it is
    have hworld := resolveTargets_world (b := b) [index] (World.start state)
    simp only
    rw [within_bind]
    cases hresolve : (resolveTargets b [index]).within (World.start state) with
    | mk targets after =>
      rw [hresolve] at hworld
      subst hworld
      cases targets with
      | error e =>
        rw [prepare, hr, hindices, hresolve]
        rfl
      | ok targets =>
        simp only
        rw [prepare_of_targets hr (by rw [hindices, hresolve]), within_bind, within_lift]
        cases r.predicate.compile <;> rfl

/-! ### The table that a search reads from -/

namespace Sql.Fragment

theorem append_empty (f : Fragment) : f ++ empty = f := by
  show Fragment.mk (f.sql ++ "") (f.params ++ []) = f
  rw [String.append_empty, List.append_nil]

theorem append_assoc (f g h : Fragment) : f ++ g ++ h = f ++ (g ++ h) := by
  show Fragment.mk (f.sql ++ g.sql ++ h.sql) (f.params ++ g.params ++ h.params) = _
  rw [String.append_assoc, List.append_assoc]
  rfl

theorem raw_append_raw (s t : String) : raw s ++ raw t = raw (s ++ t) := rfl

end Sql.Fragment

/-- What stands before the predicate in a restriction to types and to a predicate, given
whether there is a predicate. -/
def restrictionHead (types : List String) (filtered : Bool) : Fragment :=
  if types.isEmpty then (if filtered then .raw " WHERE " else .empty)
  else .raw " WHERE " ++ if filtered then (typeFilter types).push " AND " else typeFilter types

/-- What stands before the predicate in the documents of targets. -/
def tableHead (targets : List Target) (types : List String) (filtered : Bool) : Fragment :=
  .raw ("(SELECT sift_index, id, type, doc FROM ("
    ++ Text.joinWith " UNION ALL " (targets.map targetRows) ++ ") AS src")
    ++ restrictionHead types filtered

theorem restriction_eq (types : List String) {predicate : Fragment}
    (hpredicate : predicate.IsSlotted) :
    let condition := Fragment.join " AND " [typeFilter types, predicate]
    (if condition.isEmpty then condition else .raw " WHERE " ++ condition) =
      restrictionHead types (!predicate.isEmpty) ++ predicate := by
  have htypes : (typeFilter types).isEmpty = types.isEmpty := by
    cases types with
    | nil => rfl
    | cons type types => simp [typeFilter, Fragment.isEmpty]
  have hboth : ((typeFilter types).push " AND " ++ predicate).isEmpty = false := by
    simp [Fragment.isEmpty, Fragment.push]
  have hnone : Fragment.empty.isEmpty = true := rfl
  unfold restrictionHead
  cases hempty : types.isEmpty <;> cases hfilter : predicate.isEmpty
  · simp [Fragment.join, htypes, hempty, hfilter, Fragment.chain, hboth, Fragment.append_assoc]
  · rw [hpredicate.eq_empty hfilter]
    simp [Fragment.join, htypes, hempty, hnone, Fragment.chain, Fragment.append_empty]
  · simp [Fragment.join, htypes, hempty, hfilter, Fragment.chain]
  · rw [hpredicate.eq_empty hfilter]
    simp [Fragment.join, htypes, hempty, hnone, Fragment.chain, Fragment.append_empty]

/-- **The predicate stands in the table of the documents as it is.** -/
theorem documentsFragment_eq {targets : List Target} (h : targets ≠ []) (types : List String)
    {predicate : Fragment} (hpredicate : predicate.IsSlotted) :
    documentsFragment targets types predicate =
      tableHead targets types (!predicate.isEmpty) ++ predicate ++ .raw ") AS q" := by
  rw [documentsFragment, if_neg (by simpa using h)]
  simp only [restriction_eq types hpredicate]
  rw [← Fragment.append_assoc]
  rfl

/-- The text of a source stands in each statement that reads from it. -/
theorem Statement.exists_render (d : Dialect) {s : Statement} {source : Source}
    (h : s.source? = some source) :
    ∃ head tail, s.render d = .raw head ++ source.render d ++ .raw tail := by
  cases s with
  | metric m field _ =>
    cases h
    exact ⟨_, "", (Fragment.append_empty _).symm⟩
  | histogram key _ =>
    cases h
    exact ⟨_, _, rfl⟩
  | buckets table => cases h
  | count _ =>
    cases h
    exact ⟨_, "", (Fragment.append_empty _).symm⟩
  | page _ sort size offset =>
    cases h
    exact ⟨_, _, rfl⟩
  | drop table => cases h
  | create table selection =>
    cases selection with
    | bucketed key _ =>
      cases h
      -- the selection has a text of its own before the source
      let select := "SELECT " ++ key.render d ++ " AS sift_bucket, id, type, doc FROM "
      refine ⟨"CREATE TEMP TABLE " ++ quoteIdent table ++ " AS " ++ select, "", ?_⟩
      rw [← Fragment.raw_append_raw _ select]
      exact (Fragment.append_assoc _ _ _).symm.trans (Fragment.append_empty _).symm
    | bucket _ _ => cases h
    | verbatim _ => cases h

/-! ### Agreement -/

/-- **What a search asks for is what its explanation shows.**  A search that is prepared and
comes to a response has read one table, of which the predicate is a part. -/
structure Prepared.Shares (p : Prepared) (b : Backend σ) (mappings : Mappings) (call : SearchCall)
    (state : σ) (log : List Issued) : Prop where
  /-- Statements read documents from one source only, and temporary tables that were created
  before. -/
  sourced : SourcedFrom (p.source call.types) log
  /-- The text of this source, with its values, stands in all that read documents. -/
  embedded : ∀ i ∈ log, ∀ source ∈ i.statement.source?, source.reads = none →
    ∃ head tail, i.statement.render b.dialect =
      .raw head ++ (p.source call.types).render b.dialect ++ .raw tail
  /-- The hits are counted over it. -/
  counted : Asked log (.count (p.source call.types))
  /-- The page is taken from it. -/
  paged : pageOverride call.size p.request.size ≠ 0 → p.targets ≠ [] →
    Asked log (.page (p.source call.types) p.request.sort (pageOverride call.size p.request.size)
      (pageOverride call.offset p.request.offset))
  /-- The aggregations of the request are computed over it. -/
  aggregated : ∀ s ∈ p.request.aggregations,
    s.2.IsAsked b.dialect (p.context mappings call) (p.source call.types) log
  /-- Its last part is the predicate. -/
  filtered : p.targets ≠ [] → (p.source call.types).render b.dialect =
    tableHead p.targets call.types (!(p.predicate b.dialect).isEmpty) ++ p.predicate b.dialect
      ++ .raw ") AS q"
  /-- It is without rows, and without a predicate, only if there is no index at all. -/
  vacant : p.targets = [] → (p.source call.types).render b.dialect = noDocuments ∧
    meansAllIndices call.indices = true ∧ b.listIndices state = .ok []

theorem ReadsFrom.exists_render {base : Source} {earlier : List Issued} {s : Statement}
    (h : ReadsFrom base earlier s) (d : Dialect) {source : Source} (hs : source ∈ s.source?)
    (hreads : source.reads = none) :
    ∃ head tail, s.render d = .raw head ++ base.render d ++ .raw tail := by
  rw [← h.documents source hs hreads]
  exact s.exists_render d hs

section Agreement

variable {mappings : Mappings} {index : String}

/-- A search whose explanation fails does nothing, and fails alike. -/
theorem search_of_unexplained (call : SearchCall) {e : ExecutionError}
    (hindices : call.indices = [index])
    (h : ((explain b options call.body index).within (World.start state)).1 = .error e) :
    (search b mappings options call).within (World.start state) =
      (.error e, World.start state) := by
  rw [explain_within hindices] at h
  cases hp : prepare b options call state with
  | error e' =>
    rw [hp] at h
    cases h
    exact search_of_unprepared hp
  | ok p =>
    rw [hp] at h
    cases h

/-- What is wrong with a request is shown by its explanation. -/
theorem explain_of_malformed (call : SearchCall) {cause : SearchError}
    (hindices : call.indices = [index])
    (h : ((search b mappings options call).within (World.start state)).1 = .error (.search cause)) :
    ((explain b options call.body index).within (World.start state)).1 =
      .error (.search cause) := by
  rw [explain_within hindices]
  cases hp : prepare b options call state with
  | error e =>
    rw [search_of_unprepared hp] at h
    cases h
    rfl
  | ok p =>
    cases search_underway hp h with
    | unmapped h => cases h

/-- What is shown, if there is something to show. -/
theorem explained_eq (call : SearchCall) {text : String} (hindices : call.indices = [index])
    (h : ((explain b options call.body index).within (World.start state)).1 = .ok text) :
    ∃ p, prepare b options call state = .ok p ∧ (b.NamesTables → text = p.shown b.dialect) := by
  rw [explain_within hindices] at h
  obtain ⟨p, hp, rfl⟩ := Steps.map_eq_ok.mp h
  refine ⟨p, hp, fun hb => ?_⟩
  have hresolve : (resolveTargets b call.indices).within (World.start state) =
      (.ok p.targets, World.start state) :=
    Prod.ext (prepare_eq_ok.mp hp).2.1 (resolveTargets_world call.indices _)
  exact p.inline_statement b.dialect (resolveTargets_within hb hresolve).2

theorem Prepared.shares {response : Response} {after : World σ}
    (hp : prepare b options call state = .ok p)
    (h : (search b mappings options call).within (World.start state) = (.ok response, after)) :
    p.Shares b mappings call state after.log := by
  have hsourced := search_sourced b mappings options call state
  simp only [hp, h] at hsourced
  obtain ⟨hcounted, hpaged, haggregated⟩ := search_asks hp h
  refine ⟨hsourced, fun i hi source hs hreads => ?_, hcounted, hpaged, haggregated, fun hne => ?_,
    fun hnil => ?_⟩
  · obtain ⟨later, earlier, hlog⟩ := List.append_of_mem hi
    exact (hsourced i earlier ⟨later, hlog.symm⟩).exists_render b.dialect hs hreads
  · exact documentsFragment_eq hne call.types (p.isSlotted_predicate b.dialect)
  · have htargets := (prepare_eq_ok.mp hp).2.1
    rw [hnil] at htargets
    refine ⟨?_, resolveTargets_eq_nil htargets⟩
    rw [source, hnil]
    rfl

end Agreement

/-- **A search and its explanation agree.**  If the explanation fails, then the search fails
in the same way and issues nothing; and only then the request is what the search fails
because of.  If both succeed, then they have been prepared alike: what the search has read is
the table that the explanation is about, and behind `WHERE` the explanation shows the
predicate of this table with its values written in, as long as tables are named by the rule. -/
theorem explain_agrees (b : Backend σ) (mappings : Mappings) (options : RequestOptions)
    (body index : String) (types : List String) (offset size : Option Int64) (state : σ) :
    let call : SearchCall := { body, indices := [index], types, offset, size }
    let explanation := ((explain b options body index).within (World.start state)).1
    let run := (search b mappings options call).within (World.start state)
    (∀ e, explanation = .error e → run = (.error e, World.start state)) ∧
    (∀ cause, run.1 = .error (.search cause) → explanation = .error (.search cause)) ∧
    ∀ text response, explanation = .ok text → run.1 = .ok response →
      ∃ p, prepare b options call state = .ok p ∧ p.Shares b mappings call state run.2.log ∧
        (b.NamesTables → text = p.shown b.dialect) := by
  intro call explanation run
  refine ⟨fun e h => search_of_unexplained call rfl h,
    fun cause h => explain_of_malformed call rfl h, fun text response htext hrun => ?_⟩
  obtain ⟨p, hp, hshown⟩ := explained_eq call rfl htext
  exact ⟨p, hp, p.shares hp (Prod.ext hrun rfl), hshown⟩

/-- A search for a term, and its explanation. -/
theorem explanation_of_term :
    let b := Replay.backend .sqlite
    let call : SearchCall := {
      body := "\x7b\"query\": \x7b\"term\": \x7b\"a\": \"x\"\x7d\x7d\x7d"
      indices := ["p"] }
    let state : Replay := { indices := ["p"] }
    let explanation := ((explain b {} call.body "p").within (World.start state)).1
    let run := (search b .empty {} call).within (World.start state)
    explanation.toOption =
        some "SELECT id, type, doc FROM \"sift_idx_p\" WHERE sift_text(doc -> '$.a') = 'x'" ∧
      ∃ p, prepare b {} call state = .ok p ∧ p.Shares b .empty call state run.2.log ∧
        explanation = .ok (p.shown .sqlite) := by
  intro b call state explanation run
  have hshown : explanation.toOption =
      some "SELECT id, type, doc FROM \"sift_idx_p\" WHERE sift_text(doc -> '$.a') = 'x'" := by
    decide +kernel
  have hfound : run.1.isOk = true := by decide +kernel
  obtain ⟨-, -, hagree⟩ := explain_agrees b .empty {} call.body "p" [] none none state
  refine ⟨hshown, ?_⟩
  cases htext : ((explain b {} call.body "p").within (World.start state)).1 with
  | error e =>
    rw [show explanation = .error e from htext] at hshown
    cases hshown
  | ok text =>
    cases hrun : ((search b .empty {} call).within (World.start state)).1 with
    | error e =>
      rw [show run.1 = .error e from hrun] at hfound
      cases hfound
    | ok response =>
      obtain ⟨p, hp, hshares, hp'⟩ := hagree text response htext hrun
      exact ⟨p, hp, hshares, htext.trans (congrArg _ (hp' (Replay.namesTables .sqlite)))⟩

/-- **Over no index at all the predicate is shown, but is no part of the table.** -/
theorem explanation_of_no_index :
    let b := Replay.backend .sqlite
    let call : SearchCall := {
      body := "\x7b\"query\": \x7b\"term\": \x7b\"a\": \"x\"\x7d\x7d\x7d"
      indices := ["_all"] }
    let run := (search b .empty {} call).within (World.start {})
    ((explain b {} call.body "_all").within (World.start {})).1.toOption =
        some "SELECT id, type, doc FROM  WHERE sift_text(doc -> '$.a') = 'x'" ∧
      run.1.isOk = true ∧
      run.2.log.map (fun i => i.statement.render .sqlite) =
        [.raw ("SELECT COUNT(*) FROM (SELECT NULL AS sift_index, NULL AS id, NULL AS type, "
          ++ "NULL AS doc WHERE 1 = 0) AS q")] := by
  decide +kernel

/-- **A table that is not named by the rule may show the predicate wrongly**: a question mark in its
name is taken for the place of a value, so that the value is written there. -/
theorem explanation_of_question_mark :
    let b : Backend Replay :=
      { Replay.backend .sqlite with tableFor := fun _ _ => .ok (some "a?b") }
    let call : SearchCall := {
      body := "\x7b\"query\": \x7b\"term\": \x7b\"a\": \"x\"\x7d\x7d\x7d"
      indices := ["p"] }
    let explanation := ((explain b {} call.body "p").within (World.start {})).1
    ¬b.NamesTables ∧
      explanation.toOption =
        some "SELECT id, type, doc FROM \"a'x'b\" WHERE sift_text(doc -> '$.a') = ?" ∧
      (prepare b {} call {}).toOption.map (·.shown .sqlite) =
        some "SELECT id, type, doc FROM \"a?b\" WHERE sift_text(doc -> '$.a') = 'x'" := by
  intro b call explanation
  refine ⟨fun hnames => ?_, by decide +kernel, by decide +kernel⟩
  -- the rule gives every table its prefix
  have htable : Index.tableName "p" = .ok "a?b" := hnames "p" {} "a?b" rfl
  exact absurd htable (by decide +kernel)

end DocSearch
