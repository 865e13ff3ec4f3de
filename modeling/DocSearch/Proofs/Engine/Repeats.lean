import DocSearch.Proofs.Engine.Alignment
import DocSearch.Proofs.Engine.Counting
import DocSearch.Proofs.Store.History

/-!
# Indices that are named more than once

A list of indices may name one of them several times, and a list for all of them may be
answered with one of them twice.  Each name is looked up, so that an unknown one is refused
wherever it stands, but an index becomes a target only when it is named first.  So a search
does the same as for the list without its repeats, and of the documents that have been stored
in its indices it counts none twice.

## Main results

* `search_eraseDups` — **a search does the same for a list without its repeats**.
* `Session.stored_of_matched` — what a search finds has been stored, and is still there.
* `search_counts_indices_once` — targets, responses and counts of a list that may have repeats.
-/

namespace DocSearch

open Sql Steps

/-- **A search does the same for a list of indices without its repeats.** -/
theorem search_eraseDups {σ : Type} (b : Backend σ) (mappings : Mappings)
    (options : RequestOptions) (call : SearchCall) :
    search b mappings options { call with indices := call.indices.eraseDups } =
      search b mappings options call := by
  simp only [search, resolveTargets_eraseDups]

/-- Finding the targets resolves the names that a list stands for. -/
theorem resolves_resolveTargets {σ : Type} {b : Backend σ} {w : World σ}
    (hlookup : Answers fun index => b.tableFor index w.state) {listed : List String}
    (hlisted : b.listIndices w.state = .ok listed) (indices : List String) :
    Resolves (fun index => b.tableFor index w.state)
      (if indices = [] ∨ "_all" ∈ indices ∨ "*" ∈ indices then listed else indices)
      ((resolveTargets b indices).within w).1 := by
  rw [within_resolveTargets, targetNames, hlisted]
  simp only [← meansAllIndices_iff]
  split <;> exact resolves_targetsFor hlookup _

namespace Session

variable {db : Database} {options : RequestOptions} {call : SearchCall} {p : Prepared}

/-- The targets of a search, once it is prepared. -/
theorem targets_of_prepared (hp : prepare backend options call ⟨db, false⟩ = .ok p) :
    db.targets call.indices = .ok p.targets := by
  rw [← resolveTargets_result]
  exact (prepare_eq_ok.mp hp).2.1

/-- No index is a target twice. -/
theorem index_of_prepared (hp : prepare backend options call ⟨db, false⟩ = .ok p) :
    p.targets.map (·.index) =
        (if meansAllIndices call.indices then db.listIndices else call.indices).eraseDups ∧
      (p.targets.map (·.index)).Nodup := by
  have hindices := index_targetsFor (targets_of_prepared hp)
  exact ⟨hindices, hindices ▸ nodup_eraseDups _⟩

/-- **What a search finds is in one of its indices**, where it was stored last. -/
theorem stored_of_matched {calls : List StoreCall} (hdb : db.Follows calls)
    (hp : prepare backend options call ⟨db, false⟩ = .ok p) (mappings : Mappings) :
    ∀ m ∈ db.matched (p.context mappings call) p.condition,
      m.index ∈ p.targets.map (·.index) ∧
      StoreCall.stored? calls m.index m.document.docType m.document.id = some m.document.body := by
  intro m hm
  obtain ⟨⟨t, ht, hindex, hd⟩, -⟩ := Database.mem_matched.mp hm
  have htable : Index.tableName t.index = .ok t.table :=
    namesTables t.index ⟨db, false⟩ t.table (mem_targetsFor (targets_of_prepared hp) t ht).2
  have hname : t.table = Index.tablePrefix ++ t.index := by
    cases hvalid : Index.isValidName t.index with
    | false =>
      rw [Index.tableName_of_invalid hvalid] at htable
      cases htable
    | true =>
      rw [Index.tableName_of_valid hvalid] at htable
      exact (Except.ok.inj htable).symm
  rw [hname, Database.indexTable?_tablePrefix] at hd
  rw [hindex]
  exact ⟨List.mem_map_of_mem ht, (hdb.mem_documents t.index m.document).mp hd⟩

end Session

/-- **Repeating an index never counts a document twice.**

A list of names stands for itself, or for all indices.  Over any store whose lookups do not
fail, it is refused for its first name that is unknown or not allowed, or each index that is
named is a target once, in the order in which it is named first.  So a search gives the same
for the list without its repeats.  Over a store in which documents have been stored, whatever
temporary tables are left over, a response counts each of the documents that are found at most
once, and these are documents of its indices, no two of which have the same index, type and
identifier. -/
theorem search_counts_indices_once (mappings : Mappings) (options : RequestOptions)
    (call : SearchCall) :
    (∀ {σ : Type} (b : Backend σ) (w : World σ) (listed : List String),
      Answers (fun index => b.tableFor index w.state) → b.listIndices w.state = .ok listed →
      Resolves (fun index => b.tableFor index w.state)
        (if call.indices = [] ∨ "_all" ∈ call.indices ∨ "*" ∈ call.indices then listed
          else call.indices)
        ((resolveTargets b call.indices).within w).1) ∧
    (∀ {σ : Type} (b : Backend σ) (w : World σ),
      (search b mappings options { call with indices := call.indices.eraseDups }).within w =
        (search b mappings options call).within w) ∧
    ∀ (calls : List StoreCall) (temporary : List (String × List TemporaryRow))
      (response : Response),
      let db : Database := { Database.empty.performAll calls with temporary }
      ((search Session.backend mappings options call).within (World.start ⟨db, false⟩)).1 =
        .ok response →
      ∃ p, prepare Session.backend options call ⟨db, false⟩ = .ok p ∧
        let found := db.matched (p.context mappings call) p.condition
        (found.map Candidate.key).Nodup ∧
        (∀ m ∈ found, m.index ∈ p.targets.map (·.index) ∧ StoreCall.stored? calls m.index
          m.document.docType m.document.id = some m.document.body) ∧
        response.CountsOnce (p.context mappings call) p.request.aggregations found
          (Distinguished (· ∈ (Corpus.mk db mappings options).tables call)) := by
  refine ⟨fun b w listed hlookup hlisted => resolves_resolveTargets hlookup hlisted call.indices,
    fun b w => by rw [search_eraseDups], ?_⟩
  intro calls temporary response db h
  have hstored := Database.follows_performAll calls
  -- tables that are left over play no part in what has been stored
  have hdb : db.Follows calls :=
    ⟨hstored.nodup, hstored.mem_names, hstored.keyed, hstored.mem_documents⟩
  obtain ⟨p, hp, -⟩ := Session.search_hits h
  have hnodup := (Session.index_of_prepared hp).2
  exact ⟨p, hp, Database.nodup_matched hdb.keyed hnodup p.condition,
    Session.stored_of_matched hdb hp mappings, Session.search_countsOnce hdb.keyed hp hnodup h⟩

/-- A list that names the first of two indices twice, with a document of the same key in each:
there are two hits, as for the list without the repeat, and two identifiers are counted. -/
theorem search_counts_indices_once_two :
    let d : Document := ⟨"t", "1", .obj []⟩
    let db := Database.empty.performAll [.put "p" d, .put "q" d]
    let call : SearchCall := {
      body := "\x7b\"aggs\":\x7b\"n\":\x7b\"value_count\":\x7b\"field\":\"_id\"\x7d\x7d\x7d\x7d"
      indices := ["p", "q", "p"] }
    let v : Corpus := ⟨db, .empty, {}⟩
    ∃ response, v.alone call = .ok response ∧ v.alone { call with indices := ["p", "q"] } = .ok response ∧
      response.hits.total = 2 ∧
      response.hits.hits.map Hit.key = [("p", "t", "1"), ("q", "t", "1")] ∧
      response.aggregations.map (fun r => (r.1, r.2.print)) = [("n", "\x7b\"value\":2\x7d")] ∧
      Distinguished (· ∈ v.tables call) ∧
      ∃ p, prepare Session.backend v.options call ⟨db, false⟩ = .ok p ∧
        response.CountsOnce (p.context v.mappings call) p.request.aggregations
          (db.matched (p.context v.mappings call) p.condition) (Distinguished (· ∈ v.tables call)) := by
  intro d db call v
  have hrun : (v.alone call).toOption.map (fun r => (r.hits.total, r.hits.hits.map Hit.key,
      r.aggregations.map fun r => (r.1, r.2.print))) =
        some (2, [("p", "t", "1"), ("q", "t", "1")], [("n", "\x7b\"value\":2\x7d")]) := by
    decide +kernel
  have hnone : v.tables call = [] := List.isEmpty_iff.mp (by decide +kernel)
  obtain ⟨-, hsame, hcounts⟩ := search_counts_indices_once v.mappings v.options call
  cases halone : v.alone call with
  | error e =>
    rw [halone] at hrun
    cases hrun
  | ok response =>
    rw [halone] at hrun
    simp only [Except.toOption, Option.map_some, Option.some.injEq, Prod.mk.injEq] at hrun
    obtain ⟨htotal, hhits, haggregations⟩ := hrun
    obtain ⟨p, hp, -, -, hresponse⟩ := hcounts [.put "p" d, .put "q" d] [] response halone
    refine ⟨response, rfl, ?_, htotal, hhits, haggregations, ?_, p, hp, hresponse⟩
    · have heq := hsame Session.backend (World.start ⟨db, false⟩)
      exact (congrArg Prod.fst heq).trans halone
    · rw [hnone]
      exact ⟨fun _ ht => (nomatch ht), fun _ _ ht => nomatch ht⟩

end DocSearch
