import DocSearch.Proofs.Engine.Failures
import DocSearch.Proofs.Engine.Naming
import DocSearch.Proofs.Steps

/-!
# Searches over databases that serve them

What a search is worth is said without a walk: its query is compiled, its aggregations have
their values, and the hits are read from the documents.  A search over a database that
serves its walk, and that still has these documents afterwards, comes to this value, or it
fails with an excuse.  A search that has the database for itself needs none.

## Main definitions

* `Corpus` — what all searches have in common.
* `Corpus.origin`, `Corpus.tables` — what the walk of a search starts from, and the
  temporary tables that it asks for.
* `Corpus.value`, `Corpus.alone` — what a search is worth, and what it gives if it has the
  database for itself.
* `ServesSearches` — a database serves searches.

## Main results

* `search_gives` — a search that is served comes to its value.
* `Corpus.coherent_tables` — tables of one name hold the same rows, whichever searches ask
  for them.
* `Corpus.alone_eq_value` — a search that has the database for itself comes to its value.
-/

namespace DocSearch

open Sql Steps

/-! ### What a search is worth -/

/-- The indices of a search with their tables. -/
def Database.targets (db : Database) (indices : List String) : Except ExecutionError (List Target) :=
  targetsFor db.tableFor (if meansAllIndices indices then db.listIndices else indices)

/-- The number of hits and a page of them. -/
def Database.hits (db : Database) (c : SearchContext) (condition : Option Condition)
    (sort : List SortClause) (size offset : Int64) : Except StoreError Hits := do
  let source := Source.documents c.targets c.types condition
  let rows ← (db.answer (.count source)).mapError .evaluation
  let total := ((firstValue rows).toInt64?.getD 0).toInt.toNat
  if size = 0 ∨ c.targets.isEmpty then return ⟨total, []⟩
  else
    let rows ← (db.answer (.page source sort size offset)).mapError .evaluation
    return ⟨total, ← rows.mapM Hit.ofRow⟩

/-- The documents, their declared types and the options, which all searches share. -/
structure Corpus where
  /-- The database; its temporary tables do not matter. -/
  database : Database
  /-- The declared types of fields. -/
  mappings : Mappings
  /-- What shapes the reading of requests. -/
  options : RequestOptions

namespace Corpus

/-- The request of a search and what its walk starts from. -/
def origin (v : Corpus) (call : SearchCall) : Except ExecutionError (Request × Origin) := do
  let r ← readRequest v.options call.body
  let targets ← v.database.targets call.indices
  let condition ← r.predicate.compile.mapError (.search ∘ .query)
  return (r, ⟨v.database, ⟨targets, call.types, v.mappings, r.source⟩, condition⟩)

/-- What a search is worth once its request is known. -/
def response (call : SearchCall) (r : Request) (o : Origin) : Except ExecutionError Response := do
  let aggregations ← Aggregations.value o r.aggregations .whole
  let hits ← (o.database.hits o.context o.condition r.sort (pageOverride call.size r.size)
    (pageOverride call.offset r.offset)).mapError .hits
  return ⟨hits, aggregations⟩

/-- What a search is worth. -/
def value (v : Corpus) (call : SearchCall) : Except ExecutionError Response := do
  let (r, o) ← v.origin call
  response call r o

/-- The temporary tables that the walk of a search asks for. -/
def tables (v : Corpus) (call : SearchCall) : List Table :=
  match v.origin call with
  | .ok (r, o) => Aggregations.tables o r.aggregations .whole
  | .error _ => []

/-- What a search gives if it has the database for itself. -/
def alone (v : Corpus) (call : SearchCall) : Except ExecutionError Response :=
  ((search Session.backend v.mappings v.options call).within (World.start ⟨v.database, false⟩)).1

end Corpus

/-! ### Databases that serve searches -/

/-- A database serves searches: it serves their walks, and what survives a walk is enough
to find the indices and to read the documents of the corpus.  No drop fails. -/
structure ServesSearches {σ : Type} (b : Backend σ) (v : Corpus) (tables : Table → Prop)
    (I : Invariant σ) (Excuse : ExecutionError → Prop) : Prop where
  walks : Serves b v.database.indices tables I Excuse
  listIndices : ∀ {w : World σ}, I.Survives w → b.listIndices w.state = .ok v.database.listIndices
  tableFor : ∀ {w : World σ}, I.Survives w → ∀ index,
    b.tableFor index w.state = v.database.tableFor index
  read : ∀ {w : World σ} {s : Statement}, I.Survives w → s.isCommand = false → s.reads = none →
    (b.run s w.state).1 = (v.database.answer s).mapError .evaluation ∧
      I.Survives ((issue b s).within w).2
  drop : ∀ {state : σ} {name : String}, (b.run (.drop name) state).1 = .ok []
  survives_drop : DropsKeep b I.Survives
  cancelled : ∀ {w : World σ}, I.Survives w → b.cancelled w.state = true → Excuse .cancelled

section Searches

open Run

variable {σ : Type} {b : Backend σ} {v : Corpus} {tables : Table → Prop} {I : Invariant σ}
  {Excuse : ExecutionError → Prop} {w : World σ}

theorem resolveTargets_result (hS : ServesSearches b v tables I Excuse) (hw : I.Survives w)
    (indices : List String) :
    ((resolveTargets b indices).within w).1 = v.database.targets indices := by
  have htable : (fun index => b.tableFor index w.state) = v.database.tableFor :=
    funext (hS.tableFor hw)
  rw [within_resolveTargets, targetNames, hS.listIndices hw, htable, Database.targets]
  cases meansAllIndices indices <;> rfl

/-- The clean-up does not fail. -/
theorem release_result (hS : ServesSearches b v tables I Excuse) (w : World σ) :
    ((release b).within w).1 = .ok () := by
  have hfirst : ∀ (count : Nat) (w : World σ), (dropTables b count none w).1 = none := by
    intro count
    induction count with
    | zero => exact fun w => rfl
    | succ count ih =>
      intro w
      rw [dropTables]
      cases w.arena.pop? with
      | none => rfl
      | some popped =>
        simp only [within_issue, hS.drop, Option.or_none]
        exact ih _
  rw [release, within_of]
  show Prod.fst (_, _) = _
  rw [hfirst]

theorem issue_within (hS : ServesSearches b v tables I Excuse) (hw : I.Survives w)
    {s : Statement} (hs : s.isCommand = false) (hreads : s.reads = none) :
    ∃ after, (issue b s).within w = ((v.database.answer s).mapError .evaluation, after) ∧
      I.Survives after := by
  obtain ⟨hanswer, hafter⟩ := hS.read hw hs hreads
  rw [within_issue, hanswer] at hafter
  rw [within_issue, hanswer]
  exact ⟨_, rfl, hafter⟩

/-- Hits are read from the documents, in worlds in which statements read those of one
database. -/
theorem fetchHits_within_of {db : Database} {P : World σ → Prop}
    (hread : ∀ {w : World σ} {s : Statement}, P w → s.isCommand = false → s.reads = none →
      ∃ after, (issue b s).within w = ((db.answer s).mapError .evaluation, after) ∧ P after)
    (hw : P w) (c : SearchContext) (condition : Option Condition) (sort : List SortClause)
    (size offset : Int64) :
    ∃ after, (fetchHits b c condition sort size offset).within w =
      (db.hits c condition sort size offset, after) ∧ P after := by
  obtain ⟨counted, hcount, hcounted⟩ :=
    hread hw (s := .count (.documents c.targets c.types condition)) rfl rfl
  rw [fetchHits, within_bind, hcount, Database.hits]
  cases db.answer (.count (.documents c.targets c.types condition)) with
  | error e => exact ⟨counted, rfl, hcounted⟩
  | ok rows =>
    simp only [Steps.mapError_ok]
    by_cases hpage : size = 0 ∨ c.targets.isEmpty = true
    · simp only [if_pos hpage]
      exact ⟨counted, rfl, hcounted⟩
    · simp only [if_neg hpage]
      obtain ⟨paged, hrows, hpaged⟩ := hread hcounted
        (s := .page (.documents c.targets c.types condition) sort size offset) rfl rfl
      rw [within_bind, hrows]
      refine ⟨paged, ?_, hpaged⟩
      cases db.answer (.page (.documents c.targets c.types condition) sort size offset) with
      | error e => rfl
      | ok rows =>
        simp only [Steps.mapError_ok]
        rw [within_bind, within_lift]
        simp only [bind, Except.bind]
        cases rows.mapM Hit.ofRow <;> rfl

theorem fetchHits_within (hS : ServesSearches b v tables I Excuse) (hw : I.Survives w)
    (c : SearchContext) (condition : Option Condition) (sort : List SortClause)
    (size offset : Int64) :
    ∃ after, (fetchHits b c condition sort size offset).within w =
      (v.database.hits c condition sort size offset, after) ∧ I.Survives after :=
  fetchHits_within_of (fun hw hs hreads => issue_within hS hw hs hreads) hw c condition sort size offset

/-- What a search does behind its request comes to the hits, unless it is cancelled. -/
theorem finish_within (hS : ServesSearches b v tables I Excuse) (hw : I.Survives w)
    (c : SearchContext) (call : SearchCall) (r : Request) (found : Outcome) :
    (((finish b c call r found).within w).1 = (do
        let hits ← (v.database.hits c found.condition r.sort (pageOverride call.size r.size)
          (pageOverride call.offset r.offset)).mapError .hits
        return ⟨hits, found.aggregations⟩) ∨
      ((finish b c call r found).within w).1 = .error .cancelled ∧ Excuse .cancelled) ∧
    I.Survives ((finish b c call r found).within w).2 := by
  rw [finish, within_bind, checkCancelled, within_of]
  cases hcancelled : b.cancelled w.state with
  | true => exact ⟨.inr ⟨rfl, hS.cancelled hw hcancelled⟩, hw⟩
  | false =>
    obtain ⟨after, hhits, hafter⟩ := fetchHits_within hS hw c found.condition r.sort
      (pageOverride call.size r.size) (pageOverride call.offset r.offset)
    simp only [Bool.false_eq_true, if_false]
    rw [within_bind, within_mapError, hhits]
    cases v.database.hits c found.condition r.sort (pageOverride call.size r.size)
      (pageOverride call.offset r.offset) with
    | error e => exact ⟨.inl rfl, hafter⟩
    | ok hits => exact ⟨.inl rfl, hafter⟩

/-- The walk of a request comes to the values of its aggregations, or fails with an
excuse. -/
theorem walk_gives (hS : ServesSearches b v tables I Excuse) (hw : I.Holds w)
    {r : Request} {c : SearchContext} {condition : Option Condition}
    (hr : r.predicate.compile = .ok condition)
    (ht : ∀ t ∈ Aggregations.tables ⟨v.database, c, condition⟩ r.aggregations .whole, tables t) :
    (walkResult b c r w = Aggregations.value ⟨v.database, c, condition⟩ r.aggregations .whole ∨
      ∃ e, walkResult b c r w = .error e ∧ Excuse e) ∧ I.Survives (walkEnd b c r w) := by
  let o : Origin := ⟨v.database, c, condition⟩
  have hplace : o.Holds tables .whole { w with scope := o.source .whole } := Origin.holds_whole rfl
  have hgives : Gives I Excuse w (withScope (o.source .whole) (Aggregations.execute b c r.aggregations))
      (Aggregations.value o r.aggregations .whole) :=
    (Aggregations.execute_gives hS.walks r.aggregations (I.holds_scope _ hw) hplace ht).withScope
  simp only [walkResult, walkEnd, hr]
  exact ⟨hgives.result, hgives.survives⟩

/-- A request comes to its condition and the values of its aggregations, or fails with an
excuse. -/
theorem runRequest_gives (hS : ServesSearches b v tables I Excuse) (hw : I.Holds w)
    (c : SearchContext) (r : Request)
    (ht : ∀ condition, r.predicate.compile = .ok condition →
      ∀ t ∈ Aggregations.tables ⟨v.database, c, condition⟩ r.aggregations .whole, tables t) :
    (((runRequest b c r).within w).1 = (do
        let condition ← r.predicate.compile.mapError (.search ∘ .query)
        let results ← Aggregations.value ⟨v.database, c, condition⟩ r.aggregations .whole
        return ⟨condition, results⟩) ∨
      ∃ e, ((runRequest b c r).within w).1 = .error e ∧ Excuse e) ∧
    I.Survives ((runRequest b c r).within w).2 := by
  rw [runRequest_result]
  cases hr : r.predicate.compile with
  | error e =>
    rw [runRequest_world_of_error b c w hr]
    exact ⟨.inl rfl, I.survives hw⟩
  | ok condition =>
    obtain ⟨hwalk, hsurvives⟩ := walk_gives hS hw hr (ht condition hr)
    -- the clean-up succeeds in such worlds, so that only the walk decides
    rw [runRequest_world b c w hr, release_result hS]
    refine ⟨?_, (release_keeps hS.survives_drop _).2 hsurvives⟩
    simp only [Steps.mapError_ok, bind, Except.bind]
    generalize Aggregations.value ⟨v.database, c, condition⟩ r.aggregations .whole = values at hwalk ⊢
    rcases hwalk with hwalk | ⟨e, hwalk, hexcuse⟩
    · rw [hwalk]
      cases values <;> exact .inl rfl
    · rw [hwalk]
      exact .inr ⟨e, rfl, hexcuse⟩

theorem Corpus.origin_of_targets {call : SearchCall} {r : Request} {targets : List Target}
    (hr : readRequest v.options call.body = .ok r)
    (htargets : v.database.targets call.indices = .ok targets) :
    v.origin call = (r.predicate.compile.mapError (.search ∘ .query)).map fun condition =>
      (r, ⟨v.database, ⟨targets, call.types, v.mappings, r.source⟩, condition⟩) := by
  rw [origin, hr, htargets]
  rfl

/-- Once the request is read and its targets are found, a search is worth its request and
then its hits. -/
theorem Corpus.value_of_targets {call : SearchCall} {r : Request} {targets : List Target}
    (hr : readRequest v.options call.body = .ok r)
    (htargets : v.database.targets call.indices = .ok targets) :
    let c : SearchContext := ⟨targets, call.types, v.mappings, r.source⟩
    v.value call = (do
      let found ← (do
        let condition ← r.predicate.compile.mapError (.search ∘ .query)
        let results ← Aggregations.value ⟨v.database, c, condition⟩ r.aggregations .whole
        return ⟨condition, results⟩ : Except ExecutionError Outcome)
      let hits ← (v.database.hits c found.condition r.sort (pageOverride call.size r.size)
        (pageOverride call.offset r.offset)).mapError .hits
      return ⟨hits, found.aggregations⟩) := by
  intro c
  rw [value, origin_of_targets hr htargets]
  cases r.predicate.compile with
  | error e => rfl
  | ok condition =>
    show response call r ⟨v.database, c, condition⟩ = _
    rw [response]
    simp only [Steps.mapError_ok, bind, Except.bind]
    cases Aggregations.value ⟨v.database, c, condition⟩ r.aggregations .whole <;> rfl

theorem Corpus.tables_of_targets {call : SearchCall} {r : Request} {targets : List Target}
    {condition : Option Condition} (hr : readRequest v.options call.body = .ok r)
    (htargets : v.database.targets call.indices = .ok targets)
    (hcompile : r.predicate.compile = .ok condition) :
    v.tables call = Aggregations.tables
      ⟨v.database, ⟨targets, call.types, v.mappings, r.source⟩, condition⟩ r.aggregations .whole := by
  rw [tables, origin_of_targets hr htargets, hcompile]
  rfl

/-- **A search that is served comes to its value**, or it fails with an excuse. -/
theorem search_gives (hS : ServesSearches b v tables I Excuse) {call : SearchCall} {state : σ}
    (hw : I.Holds (World.start state)) (ht : ∀ t ∈ v.tables call, tables t) :
    let run := (search b v.mappings v.options call).within (World.start state)
    (run.1 = v.value call ∨ ∃ e, run.1 = .error e ∧ Excuse e) ∧ I.Survives run.2 := by
  intro run
  have hstart : I.Survives (World.start state) := I.survives hw
  have htargets := resolveTargets_result hS hstart call.indices
  -- errors win in the order of the steps: the request, the indices, the walk, and then the hits
  cases hr : readRequest v.options call.body with
  | error e =>
    have hrun : run = (.error e, World.start state) := search_within_of_unread hr
    rw [hrun, Corpus.value, Corpus.origin, hr]
    exact ⟨.inl rfl, hstart⟩
  | ok r =>
    cases hresolved : v.database.targets call.indices with
    | error e =>
      rw [hresolved] at htargets
      have hrun : run = (.error e, World.start state) := search_within_of_unresolved hr htargets
      rw [hrun, Corpus.value, Corpus.origin, hr, hresolved]
      exact ⟨.inl rfl, hstart⟩
    | ok targets =>
      rw [hresolved] at htargets
      obtain ⟨hresult, hafter⟩ := runRequest_gives hS
        (I.holds_scope (.documents targets call.types none) hw)
        ⟨targets, call.types, v.mappings, r.source⟩ r fun condition hcompile => by
          rw [Corpus.tables_of_targets hr hresolved hcompile] at ht
          exact ht
      have hrun : run = _ := search_within hr htargets
      rw [hrun, Corpus.value_of_targets hr hresolved]
      cases hwithin : (runRequest b ⟨targets, call.types, v.mappings, r.source⟩ r).within
          { World.start state with scope := .documents targets call.types none } with
      | mk result after =>
        rw [hwithin] at hresult hafter
        cases result with
        | error e =>
          refine ⟨?_, I.survives_scope _ hafter⟩
          rcases hresult with hresult | ⟨cause, hcause, hexcuse⟩
          · rw [← hresult]
            exact .inl rfl
          · cases hcause
            exact .inr ⟨e, rfl, hexcuse⟩
        | ok found =>
          obtain ⟨hresponse, hlater⟩ := finish_within hS
            (I.survives_scope (World.start state).scope hafter) _ call r found
          refine ⟨?_, hlater⟩
          rcases hresult with hresult | ⟨cause, hcause, -⟩
          · rw [← hresult]
            rcases hresponse with hresponse | ⟨hcancelled, hexcuse⟩
            · exact .inl hresponse
            · exact .inr ⟨_, hcancelled, hexcuse⟩
          · cases hcause

end Searches

/-! ### A search that has the database for itself -/

namespace Session

variable {tables : Table → Prop} {v : Corpus}

theorem servesSearches (htables : Coherent tables) :
    ServesSearches backend v tables (invariant tables v.database.indices) fun _ => False where
  walks := serves htables
  listIndices := fun {w} ⟨_, hindices⟩ => by
    show Except.ok w.state.database.listIndices = _
    rw [Database.listIndices, hindices, Database.listIndices]
  tableFor := fun {w} ⟨_, hindices⟩ index => by
    show w.state.database.tableFor index = _
    rw [Database.tableFor, Database.documents?, hindices]
    rfl
  read := fun {w s} ⟨hrunning, hindices⟩ hs hreads => by
    have hanswer : w.state.database.answer s = v.database.answer s :=
      Database.AgreesOn.answer ⟨hindices, by rw [hreads]; exact fun _ h => nomatch h⟩
    have hrun : backend.run s w.state = _ := run_of_read hs w.state
    rw [within_issue, hrun, hanswer]
    exact ⟨rfl, hrunning, hindices⟩
  drop := rfl
  survives_drop := fun _ h => h
  cancelled := fun {w} ⟨hrunning, _⟩ hcancelled => by
    have hcancelled : w.state.cancelled = true := hcancelled
    rw [hrunning] at hcancelled
    cases hcancelled

end Session

/-- **A search that has the database for itself comes to its value.** -/
theorem Corpus.alone_eq_value {v : Corpus} {tables : Table → Prop} (htables : Coherent tables)
    {call : SearchCall} (ht : ∀ t ∈ v.tables call, tables t) : v.alone call = v.value call := by
  obtain ⟨hresult, -⟩ := search_gives (Session.servesSearches htables)
    (Session.undisturbed_start v.database _) ht
  exact hresult.resolve_right fun ⟨_, _, hfalse⟩ => hfalse

/-! ### Tables that several searches ask for -/

theorem Request.source_of_member {options : RequestOptions} {p p' : Draft} {entry : String × Json}
    (h : member options p entry = .ok p') : p'.request.source = p.request.source := by
  obtain ⟨key, v⟩ := entry
  simp only [member] at h
  split at h
  · obtain ⟨predicate, -, h⟩ := bind_eq_ok.mp h
    cases h
    rfl
  · split at h
    · split at h
      · cases h
      · obtain ⟨aggregations, -, h⟩ := bind_eq_ok.mp h
        cases h
        rfl
    · split at h
      · obtain ⟨sort, -, h⟩ := bind_eq_ok.mp h
        cases h
        rfl
      · split at h
        · obtain ⟨offset, -, h⟩ := bind_eq_ok.mp h
          cases h
          rfl
        · split at h
          · obtain ⟨size, -, h⟩ := bind_eq_ok.mp h
            cases h
            rfl
          · split at h
            · cases h
              rfl
            · cases h

/-- A request keeps the text that it was read from. -/
theorem source_of_readRequest {options : RequestOptions} {body : String} {r : Request}
    (h : readRequest options body = .ok r) : r.source = body := by
  rw [readRequest, mapError_eq_ok, Request.read] at h
  split at h
  · cases h
    rfl
  · split at h
    · cases h
    · obtain ⟨p, hp, rfl⟩ := map_eq_ok.mp h
      exact foldlM_keeps (I := fun p : Request.Draft => p.request.source = body)
        (fun hstep hp => (Request.source_of_member hstep).trans hp) hp rfl
    · cases h

namespace Corpus

variable {v : Corpus} {call : SearchCall} {r : Request} {o : Origin}

/-- What a search starts from is found step by step. -/
theorem origin_eq_ok (h : v.origin call = .ok (r, o)) :
    readRequest v.options call.body = .ok r ∧ r.predicate.compile = .ok o.condition ∧
      o.database = v.database ∧ ∃ targets, o.context = ⟨targets, call.types, v.mappings, call.body⟩ := by
  obtain ⟨r', hr, h⟩ := bind_eq_ok.mp h
  obtain ⟨targets, -, h⟩ := bind_eq_ok.mp h
  obtain ⟨condition, hcondition, h⟩ := bind_eq_ok.mp h
  cases h
  refine ⟨hr, mapError_eq_ok.mp hcondition, rfl, targets, ?_⟩
  rw [source_of_readRequest hr]

/-- What some search starts from. -/
def Starts (v : Corpus) (o : Origin) : Prop := ∃ call r, v.origin call = .ok (r, o)

theorem targets_ne_nil_of_bucketKey {c : SearchContext} {field : String} {interval : Interval} {key : BucketKey}
    (h : bucketKey c field interval = .ok key) : c.targets ≠ [] := by
  intro hnil
  have hnone : c.mappings.fieldType? c.indices c.types field = none := by
    rw [SearchContext.indices, hnil]
    rfl
  rw [bucketKey, hnone] at h
  cases h

/-- **The text of a request and of its source tell what a search is about.** -/
theorem recognized (v : Corpus) : Recognized v.Starts := by
  rintro o o' field field' interval interval' key key' ⟨call, r, horigin⟩ ⟨call', r', horigin'⟩ hkey
    hkey' hparts
  obtain ⟨hr, hcondition, hdatabase, targets, hcontext⟩ := origin_eq_ok horigin
  obtain ⟨hr', hcondition', hdatabase', targets', hcontext'⟩ := origin_eq_ok horigin'
  have hne := targets_ne_nil_of_bucketKey hkey
  have hne' := targets_ne_nil_of_bucketKey hkey'
  simp only [bucketedParts, Origin.source, hcontext, hcontext', List.cons.injEq] at hparts hne hne'
  obtain ⟨hbody, hsql, hparams, -⟩ := hparts
  -- the same text is read as the same request, which has one condition
  rw [hbody, hr'] at hr
  cases hr
  have hsame : o.condition = o'.condition := Except.ok.inj (hcondition.symm.trans hcondition')
  have htargets : targets = targets' := documents_targets_eq hne hne' hsql
  rw [hsame] at hparams
  have htypes : call.types = call'.types := documents_types_eq hne hne' hparams
  exact ⟨by rw [hdatabase, hdatabase'], by rw [hcontext, hcontext', htargets, htypes, hbody], hsame⟩

/-- **Tables of one name hold the same rows**, whichever searches ask for them. -/
theorem coherent_tables {tables : Table → Prop} (hdistinguished : Distinguished tables)
    (hasked : ∀ t, tables t → ∃ call, t ∈ v.tables call ∧ ∀ u ∈ v.tables call, tables u) :
    Coherent tables := by
  refine coherent_of_distinguished hdistinguished v.recognized fun t ht => ?_
  obtain ⟨call, hmem, htables⟩ := hasked t ht
  rw [Corpus.tables] at hmem htables
  cases horigin : v.origin call with
  | error e =>
    rw [horigin] at hmem
    cases hmem
  | ok found =>
    obtain ⟨r, o⟩ := found
    rw [horigin] at hmem htables
    exact ⟨o, ⟨call, r, horigin⟩, Aggregations.asks_of_mem_tables r.aggregations .whole htables t hmem⟩

end Corpus

end DocSearch
