import DocSearch.Proofs.Engine.Provenance
import DocSearch.Proofs.Engine.Searches
import DocSearch.Proofs.Store.Indices
import DocSearch.Proofs.Store.Page

/-!
# Hits

The hits of a search are those that the database has for it when the search starts: nothing
that a search does changes the documents of the indices.

## Main results

* `Session.over_invariant` — no step of a search changes the documents of the indices.
* `Session.search_hits` — **the hits of a search are those of the database**.
* `ofRow_pageRow` — a hit shows a document.
* `Database.hits_shown` — **the hits of a search show selected documents** of its targets.
-/

namespace DocSearch

open Sql Steps

/-! ### Sessions -/

namespace Session

/-- No statement changes the documents of the indices, or cancels a search. -/
theorem run_keeps (s : Statement) (session : Session) :
    (run s session).2.database.indices = session.database.indices ∧
      (run s session).2.cancelled = session.cancelled := by
  cases s with
  | drop name => exact ⟨rfl, rfl⟩
  | create name selection =>
    rw [run_create]
    split
    · exact ⟨rfl, rfl⟩
    · split <;> exact ⟨rfl, rfl⟩
  | _ =>
    rw [run_of_read rfl]
    exact ⟨rfl, rfl⟩

/-- A session that has the documents of a database and is not cancelled. -/
def Over (db : Database) (w : World Session) : Prop :=
  w.state.database.indices = db.indices ∧ w.state.cancelled = false

open Run

variable {db : Database} {w : World Session}

theorem over_start (db : Database) : Over db (World.start ⟨db, false⟩) := ⟨rfl, rfl⟩

theorem Over.issue (hw : Over db w) (s : Statement) :
    Over db ((DocSearch.issue backend s).within w).2 := by
  obtain ⟨hindices, hcancelled⟩ := run_keeps s w.state
  exact ⟨hindices.trans hw.1, hcancelled.trans hw.2⟩

theorem Over.materialize (hw : Over db w) (name : String) (selection : Selection) :
    Over db ((DocSearch.materialize backend name selection).within w).2 := by
  cases hname : w.arena.registered.contains name with
  | true =>
    rw [within_materialize_of_registered backend selection hname]
    exact hw
  | false =>
    have hregistered : Over db (w.registering name) := hw
    have hdropped := hregistered.issue (.drop name)
    rw [within_materialize_of_fresh backend selection hname]
    cases hdrop : (DocSearch.issue backend (.drop name)).within (w.registering name) with
    | mk answer dropped =>
      rw [hdrop] at hdropped
      cases answer with
      | error e => exact hdropped
      | ok rows => exact hdropped.issue (.create name selection)

theorem over_invariant (db : Database) : WalkInvariant backend (Over db) where
  read := fun _ hw => hw.issue _
  fill := fun _ _ hw => hw.materialize _ _
  enter := fun _ hw => hw
  leave := fun _ hafter => hafter

/-- The request of a search leaves the session over the same documents. -/
theorem runRequest_over (c : SearchContext) (r : Request) : Keeps (Over db) (runRequest backend c r) := by
  have hdrops : DropsKeep backend (Over db) := by
    intro w name arena _ hw
    exact Over.issue (w := { w with arena }) hw _
  exact runRequest_keeps (over_invariant db) hdrops fun _ _ hw => hw

/-- A statement reads the documents of the database. -/
theorem Over.read (hw : Over db w) {s : Statement} (hs : s.isCommand = false)
    (hreads : s.reads = none) : ∃ after,
      (DocSearch.issue backend s).within w = ((db.answer s).mapError .evaluation, after) ∧
        Over db after := by
  have hanswer : w.state.database.answer s = db.answer s := by
    refine Database.AgreesOn.answer ⟨hw.1, fun name hname => ?_⟩
    rw [hreads] at hname
    cases hname
  have hrun : (backend.run s w.state).1 = (db.answer s).mapError .evaluation := by
    rw [show backend.run s w.state = run s w.state from rfl, run_of_read hs, hanswer]
  have hafter := hw.issue s
  rw [within_issue, hrun] at hafter ⊢
  exact ⟨_, rfl, hafter⟩

/-- What a search does behind its request comes to the hits of the database. -/
theorem Over.finish (hw : Over db w) (c : SearchContext) (call : SearchCall) (r : Request)
    (found : Outcome) : ((DocSearch.finish backend c call r found).within w).1 = (do
      let hits ← (db.hits c found.condition r.sort (pageOverride call.size r.size)
        (pageOverride call.offset r.offset)).mapError .hits
      return ⟨hits, found.aggregations⟩) := by
  obtain ⟨after, hhits, -⟩ := fetchHits_within_of (b := backend) (fun hw hs => hw.read hs) hw c
    found.condition r.sort (pageOverride call.size r.size) (pageOverride call.offset r.offset)
  have hcheck : (checkCancelled backend).within w = (.ok (), w) := by
    rw [checkCancelled, within_of, show backend.cancelled w.state = false from hw.2]
    rfl
  rw [DocSearch.finish, within_bind, hcheck]
  simp only
  rw [within_bind, within_mapError, hhits]
  cases db.hits c found.condition r.sort (pageOverride call.size r.size)
    (pageOverride call.offset r.offset) with
  | error e => rfl
  | ok hits => rfl

variable {mappings : Mappings} {options : RequestOptions} {call : SearchCall} {p : Prepared}
  {response : Response}

/-- **The hits of a search are those of the database**: nothing that comes before them
changes the documents that they are read from. -/
theorem search_hits
    (h : ((search backend mappings options call).within (World.start ⟨db, false⟩)).1 = .ok response) :
    ∃ p, prepare backend options call ⟨db, false⟩ = .ok p ∧
      db.hits (p.context mappings call) p.condition p.request.sort
        (pageOverride call.size p.request.size) (pageOverride call.offset p.request.offset) =
          .ok response.hits := by
  cases hp : prepare backend options call ⟨db, false⟩ with
  | error e =>
    rw [search_of_unprepared hp] at h
    cases h
  | ok p =>
    let start : World Session :=
      { World.start ⟨db, false⟩ with scope := .documents p.targets call.types none }
    have hover := (runRequest_over (p.context mappings call) p.request start).2 (over_start db)
    rw [search_of_prepared hp] at h
    refine ⟨p, rfl, ?_⟩
    cases hrequest : (runRequest backend (p.context mappings call) p.request).within start with
    | mk result after =>
      rw [hrequest] at h hover
      cases result with
      | error e => cases h
      | ok found =>
        have hafter : Over db { after with scope := (World.start (⟨db, false⟩ : Session)).scope } :=
          hover
        simp only at h
        rw [hafter.finish, condition_of_runRequest (prepare_eq_ok.mp hp).2.2 hrequest] at h
        obtain ⟨hits, hhits, h⟩ := bind_eq_ok.mp h
        cases h
        exact mapError_eq_ok.mp hhits

/-- A search without aggregations comes to the hits of the database. -/
theorem search_of_no_aggregations (hp : prepare backend options call ⟨db, false⟩ = .ok p)
    (haggregations : p.request.aggregations = []) :
    ((search backend mappings options call).within (World.start ⟨db, false⟩)).1 =
      ((db.hits (p.context mappings call) p.condition p.request.sort
        (pageOverride call.size p.request.size)
        (pageOverride call.offset p.request.offset)).mapError .hits).map (⟨·, []⟩) := by
  let start : World Session :=
    { World.start ⟨db, false⟩ with scope := .documents p.targets call.types none }
  have hcompile := (prepare_eq_ok.mp hp).2.2
  have hnil : (Aggregations.run backend (p.context mappings call) [] :
      Run Session ExecutionError _) = pure [] := by rw [Aggregations.run]
  have hwalk : (Aggregations.execute backend (p.context mappings call)
      p.request.aggregations).within { start with scope := p.source call.types } =
        (.ok [], { start with scope := p.source call.types }) := by
    rw [haggregations, Aggregations.execute, hnil]
    rfl
  -- a walk without aggregations registers no table, so there is nothing to clean up
  have hend : walkEnd backend (p.context mappings call) p.request start = start :=
    (walkEnd_of_execute (w := start) hcompile hwalk).trans rfl
  have hrequest : (runRequest backend (p.context mappings call) p.request).within start =
      (.ok ⟨p.condition, []⟩, start) := by
    refine Prod.ext ?_ ?_
    · have hresult : walkResult backend (p.context mappings call) p.request start = .ok [] := by
        rw [walkResult, hcompile]
        exact congrArg Prod.fst hwalk
      rw [runRequest_result, hcompile, hresult, hend]
      rfl
    · rw [runRequest_world _ _ _ hcompile, hend]
      rfl
  have hstart : Over db { start with scope := (World.start (⟨db, false⟩ : Session)).scope } :=
    over_start db
  rw [search_of_prepared hp, hrequest]
  simp only
  rw [hstart.finish]
  cases db.hits (p.context mappings call) p.condition p.request.sort
      (pageOverride call.size p.request.size) (pageOverride call.offset p.request.offset) with
  | error e => rfl
  | ok hits => rfl

/-- A name is looked up without failure, unless it is not allowed. -/
theorem answers_tableFor (db : Database) : Answers db.tableFor :=
  fun index _ herror => ⟨index, Database.eq_of_tableFor_eq_error herror⟩

/-- The targets of a search are those of the database. -/
theorem resolveTargets_result (db : Database) (indices : List String) :
    ((resolveTargets backend indices).within (World.start ⟨db, false⟩)).1 = db.targets indices := by
  rw [within_resolveTargets, targetNames, Database.targets]
  cases meansAllIndices indices <;> rfl

end Session

/-! ### Hits -/

/-- A hit shows a document, if its text can be read. -/
theorem ofRow_pageRow (c : Candidate) :
    Hit.ofRow c.pageRow = match Json.read c.document.body.print with
      | some source => .ok ⟨c.index, c.document.docType, c.document.id, source⟩
      | none => .error .invalidDocument := by
  have hrow : c.pageRow[3]?.map columnText = some c.document.body.print := rfl
  rw [Hit.ofRow]
  simp only [hrow]
  cases Json.read c.document.body.print with
  | none => rfl
  | some source => rfl

theorem Database.read_of_answer {db : Database} {s : Statement} {rows : List Row}
    (hs : s.isCommand = false) (h : db.answer s = .ok rows) : db.read s = .ok rows := by
  rw [Database.answer, hs, if_neg (by decide)] at h
  split at h
  case h_1 => cases h
  case h_2 => exact h

/-- The hits of a database are those of a page of its rows. -/
theorem Database.hits_eq_ok {db : Database} {c : SearchContext} {condition : Option Condition}
    {sort : List SortClause} {size offset : Int64} {hits : Hits}
    (h : db.hits c condition sort size offset = .ok hits) :
    (size = 0 ∨ c.targets = []) ∧ hits.hits = [] ∨ ∃ rows,
      db.read (.page (.documents c.targets c.types condition) sort size offset) = .ok rows ∧
        rows.mapM Hit.ofRow = .ok hits.hits := by
  rw [Database.hits] at h
  obtain ⟨counted, -, h⟩ := bind_eq_ok.mp h
  split at h
  case isTrue hnone =>
    cases h
    exact .inl ⟨hnone.imp_right List.isEmpty_iff.mp, rfl⟩
  case isFalse =>
    obtain ⟨rows, hrows, h⟩ := bind_eq_ok.mp h
    obtain ⟨shown, hshown, h⟩ := bind_eq_ok.mp h
    cases h
    exact .inr ⟨rows, read_of_answer rfl (mapError_eq_ok.mp hrows), hshown⟩

/-- **The hits of a search show selected documents** of its targets. -/
theorem Database.hits_shown {db : Database} {c : SearchContext} {condition : Option Condition}
    {sort : List SortClause} {size offset : Int64} {hits : Hits}
    (h : db.hits c condition sort size offset = .ok hits) :
    ∀ hit ∈ hits.hits, ∃ shown : Candidate, shown.IsIn db c.targets ∧
      shown.document.IsSelected c.types condition ∧ Hit.ofRow shown.pageRow = .ok hit := by
  intro hit hmem
  rcases hits_eq_ok h with ⟨-, hnone⟩ | ⟨rows, hrows, hshown⟩
  · rw [hnone] at hmem
    cases hmem
  · have hall := read_page hrows
    rw [mapM_eq_ok] at hshown
    obtain ⟨row, hrow, hhit⟩ := List.mem_map.mp (hshown ▸ List.mem_map_of_mem (f := Except.ok) hmem)
    obtain ⟨shown, hin, hselected, rfl⟩ := hall row hrow
    exact ⟨shown, hin, hselected, hhit⟩

end DocSearch
