import DocSearch.Proofs.Engine.Alignment
import DocSearch.Proofs.Engine.Hits
import DocSearch.Proofs.Store.Indices
import DocSearch.Server.Service

/-!
# Searches for which an address names indices

The address of a search may name indices and types.  What it names is a list that is
separated by commas, from which blank names are dropped, and an empty list stands for all
indices, or for all types.  So an address that names at least one index, and does not ask
for all of them, keeps its search within the indices that it names; and if it names at
least one type, within these types.  An address that is nothing but commas and blanks does
the opposite: its search reads everything.

## Main definitions

* `Route.named?` — the indices and the types that an address names.
* `Service.searching` — the run of a search of the service.
* `Service.StaysWithin` — a search reads and shows nothing but some indices and types.

## Main results

* `Service.search_stays_within` — **a search stays within what its address names**.
* `Service.commas_search_everything` — an address of commas is a search in all indices.
-/

namespace DocSearch

open Members

/-- The indices whose documents a statement reads, with their tables. -/
def Statement.targets (s : Statement) : List Target :=
  match s.source? with
  | some (.documents targets _ _) => targets
  | _ => []

theorem ReadsFrom.mem_targets {targets : List Target} {types : List String}
    {filter : Option Condition} {log : List Issued} {s : Statement}
    (h : ReadsFrom (.documents targets types filter) log s) : ∀ t ∈ s.targets, t ∈ targets := by
  intro t ht
  rw [Statement.targets] at ht
  split at ht
  case h_1 targets' types' filter' hsource =>
    cases h.documents _ hsource rfl
    exact ht
  case h_2 => cases ht

/-- The indices and the types that the address of a search names, if it names any. -/
def Route.named? : Route → Option (List String × List String)
  | searchIndices i => some (splitList i, [])
  | searchTypes i t => some (splitList i, splitList t)
  | _ => none

namespace Service

variable {s : Service} {indices types : List String}

/-- The run of a search of the service. -/
def searching (s : Service) (call : SearchCall) :
    Except ExecutionError Response × World Session :=
  (DocSearch.search Session.backend s.mappings s.config.requestOptions call).within
    (World.start ⟨s.database, false⟩)

/-- A search reads nothing but documents of some indices, and tables that it has filled from
them, and shows nothing but documents of these indices and of some types. -/
structure StaysWithin (indices types : List String)
    (run : Except ExecutionError Response × World Session) : Prop where
  /-- A table that is read belongs to one of the indices. -/
  tables : ∀ i earlier, i :: earlier <:+ run.2.log → ∀ t ∈ i.statement.targets,
    t.index ∈ indices ∧ Index.tableName t.index = .ok t.table
  /-- A temporary table that is read was created by the search itself. -/
  temporary : ∀ i earlier, i :: earlier <:+ run.2.log → ∀ name ∈ i.statement.reads,
    Created earlier name
  /-- Nothing else is read. -/
  known : ∀ i ∈ run.2.log, i.statement.isVerbatim = false
  /-- A hit is in one of the indices, and of one of the types if any are named. -/
  hits : ∀ response, run.1 = .ok response → ∀ hit ∈ response.hits.hits,
    hit.index ∈ indices ∧ (types ≠ [] → hit.docType ∈ types)

theorem meansAllIndices_eq_false (hindices : indices ≠ [])
    (hall : ∀ i ∈ indices, i ≠ "_all" ∧ i ≠ "*") : meansAllIndices indices = false := by
  rw [meansAllIndices, Bool.or_eq_false_iff, List.any_eq_false]
  refine ⟨List.isEmpty_eq_false_iff.mpr hindices, fun i hi => ?_⟩
  simp [hall i hi]

/-- The targets of a search that names its indices. -/
theorem mem_targets_of_prepare {call : SearchCall} {p : Prepared}
    (hnamed : meansAllIndices call.indices = false)
    (hp : prepare Session.backend s.config.requestOptions call ⟨s.database, false⟩ = .ok p) :
    ∀ t ∈ p.targets, t.index ∈ call.indices ∧ Index.tableName t.index = .ok t.table := by
  have htargets := (prepare_eq_ok.mp hp).2.1
  rw [Session.resolveTargets_result, Database.targets, hnamed] at htargets
  intro t ht
  obtain ⟨hindex, htable⟩ := mem_targetsFor htargets t ht
  exact ⟨hindex, Session.namesTables t.index ⟨s.database, false⟩ t.table htable⟩

/-- A search that names its indices stays within them, and within its types if it names
any. -/
theorem searching_stays_within (s : Service) {call : SearchCall}
    (hnamed : meansAllIndices call.indices = false) :
    StaysWithin call.indices call.types (s.searching call) := by
  have hsourced := search_sourced Session.backend s.mappings s.config.requestOptions call
    ⟨s.database, false⟩
  cases hp : prepare Session.backend s.config.requestOptions call ⟨s.database, false⟩ with
  | error e =>
    rw [hp] at hsourced
    have hrun : s.searching call = (.error e, World.start ⟨s.database, false⟩) := hsourced
    rw [hrun]
    exact ⟨fun _ _ h => (nomatch List.suffix_nil.mp h), fun _ _ h => (nomatch List.suffix_nil.mp h),
      fun _ h => (nomatch h), fun _ h => nomatch h⟩
  | ok p =>
    rw [hp] at hsourced
    have hlog : SourcedFrom (p.source call.types) (s.searching call).2.log := hsourced
    refine ⟨fun i earlier hi t ht => ?_, fun i earlier hi => (hlog i earlier hi).temporary,
      fun i hi => ?_, fun response hresponse hit hhit => ?_⟩
    · exact mem_targets_of_prepare hnamed hp t ((hlog i earlier hi).mem_targets t ht)
    · obtain ⟨later, earlier, hsplit⟩ := List.append_of_mem hi
      exact (hlog i earlier (hsplit ▸ List.suffix_append later _)).known
    -- a hit shows a document of a target, and its index and type stand in its row
    · obtain ⟨p', hp', hhits⟩ := Session.search_hits hresponse
      obtain rfl : p = p' := Except.ok.inj (hp.symm.trans hp')
      obtain ⟨shown, ⟨t, ht, hindex, -⟩, hselected, hrow⟩ := Database.hits_shown hhits hit hhit
      rw [ofRow_pageRow] at hrow
      split at hrow
      case h_2 => cases hrow
      case h_1 source _ =>
        cases hrow
        have hnames := (mem_targets_of_prepare hnamed hp t ht).1
        exact ⟨hindex ▸ hnames, fun htypes => hselected.1.resolve_left htypes⟩

/-- A search that names an index that is not there fails for it, and reads nothing. -/
theorem searching_of_missing (s : Service) {call : SearchCall} {r : Request}
    (hnamed : meansAllIndices call.indices = false)
    (hr : readRequest s.config.requestOptions call.body = .ok r)
    (hmissing : ∃ index ∈ call.indices, index ∉ names s.database.indices) :
    ∃ index ∈ call.indices,
      s.searching call = (.error (.noSuchIndex index), World.start ⟨s.database, false⟩) := by
  obtain ⟨missing, hmem, hnew⟩ := hmissing
  obtain ⟨index, hindex, herror⟩ := targetsFor_of_missing (Session.answers_tableFor s.database)
    ⟨missing, hmem, fun table htable => hnew (Database.mem_of_tableFor_eq_some htable)⟩
  refine ⟨index, hindex, search_within_of_unresolved hr ?_⟩
  rw [Session.resolveTargets_result, Database.targets, hnamed]
  exact herror

/-! ### Requests -/

/-- The service answers a search with what it comes to, or rejects the request. -/
theorem search_cases (s : Service) (around : Surroundings) (indices types : List String)
    (r : HttpRequest) :
    (∃ status, s.search around indices types r = (⟨status, none⟩, s)) ∨
      ∃ page, PageParameters.read? r.query = some page ∧
        let run := s.searching ⟨r.body, indices, types, page.offset, page.size⟩
        s.search around indices types r =
          (respond ((run.1.map fun a => (200, a.toJson around.took)).mapError .ofExecution),
            { s with database := run.2.state.database }) := by
  rw [search]
  cases PageParameters.read? r.query with
  | none => exact .inl ⟨400, rfl⟩
  | some page =>
    simp only
    split
    · exact .inl ⟨413, rfl⟩
    · exact .inr ⟨page, rfl, rfl⟩

theorem serve_of_named (around : Surroundings) (r : HttpRequest) {route : Route}
    (h : route.named? = some (indices, types)) :
    s.serve around r route = s.search around indices types r := by
  cases route with
  | searchIndices i =>
    cases h
    rfl
  | searchTypes i t =>
    cases h
    rfl
  | searchAll | validate _ | mapping _ | documents _ _ | document _ _ _ => cases h

/-- **A search stays within what its address names.**  Whatever the service holds and the
request says, an address that names at least one index, and not all of them, is answered
with a bare rejection or with a search that reads the documents of these indices only, and
tables that it has filled from them itself; its hits are in these indices, and of the types
that the address names if it names any.  If one of the indices is not there, the search
fails for such an index and reads nothing. -/
theorem search_stays_within (s : Service) (around : Surroundings) (r : HttpRequest)
    {route : Route} (hroute : route.named? = some (indices, types)) (hsome : indices ≠ [])
    (hall : ∀ i ∈ indices, i ≠ "_all" ∧ i ≠ "*") :
    (∃ status, s.serve around r route = (⟨status, none⟩, s)) ∨
      ∃ page, PageParameters.read? r.query = some page ∧
        let run := s.searching ⟨r.body, indices, types, page.offset, page.size⟩
        s.serve around r route =
            (respond ((run.1.map fun a => (200, a.toJson around.took)).mapError .ofExecution),
              { s with database := run.2.state.database }) ∧
          StaysWithin indices types run ∧
          ∀ request, readRequest s.config.requestOptions r.body = .ok request →
            (∃ index ∈ indices, index ∉ names s.database.indices) →
              ∃ index ∈ indices,
                run = (.error (.noSuchIndex index), World.start ⟨s.database, false⟩) := by
  have hnamed := meansAllIndices_eq_false hsome hall
  rw [serve_of_named around r hroute]
  rcases search_cases s around indices types r with hrejected | ⟨page, hpage, hanswer⟩
  · exact .inl hrejected
  · let call : SearchCall := ⟨r.body, indices, types, page.offset, page.size⟩
    have hcall : meansAllIndices call.indices = false := hnamed
    exact .inr ⟨page, hpage, hanswer, searching_stays_within s hcall,
      fun _ hr hmissing => searching_of_missing s hcall hr hmissing⟩

/-- A service with a document in an index. -/
def oneDocument : Service where
  config := {}
  database := { indices := [("p", [⟨"doc", "1", .obj [("a", .num (.int 1))]⟩])] }
  mappings := .ofIndices []

/-- A search in that index, and for types that some of its documents have. -/
theorem search_stays_within_two_types :
    let s := oneDocument
    let run := s.searching ⟨"", ["p"], ["doc", "note"], none, none⟩
    (run.1.toOption.map fun response => response.hits.hits.map (·.id)) = some ["1"] ∧
      StaysWithin ["p"] ["doc", "note"] run := by
  refine ⟨by decide +kernel, ?_⟩
  let r : HttpRequest := { method := .get, path := "/p/doc,%20note/_search" }
  have hnamed : (Route.searchTypes "p" "doc, note").named? = some (["p"], ["doc", "note"]) := by
    decide +kernel
  rcases search_stays_within oneDocument ⟨"", 0⟩ r hnamed (by decide) (by decide) with
    ⟨status, hrejected⟩ | ⟨page, hpage, -, hwithin, -⟩
  · have hbody : (oneDocument.serve ⟨"", 0⟩ r (.searchTypes "p" "doc, note")).1.body.isSome := by
      decide +kernel
    rw [hrejected] at hbody
    cases hbody
  · obtain rfl : {} = page := Option.some.inj hpage
    exact hwithin

/-- **An address that is nothing but commas and blanks is a search in all indices**, and one
whose types are is a search for all types. -/
theorem commas_search_everything :
    let run := oneDocument.searching ⟨"", [], [], none, none⟩
    (Route.searchTypes " ," ",").named? = some ([], []) ∧
      (run.1.toOption.map fun response => response.hits.hits.map (·.index)) = some ["p"] ∧
        ∃ i ∈ run.2.log, ⟨"p", "sift_idx_p"⟩ ∈ i.statement.targets := by
  decide +kernel

end Service

end DocSearch
