import DocSearch.Proofs.Engine.Histogram
import DocSearch.Proofs.Engine.Hits
import DocSearch.Proofs.Engine.Siblings
import DocSearch.Proofs.Store.PageOnce

/-!
# Documents are counted once

The documents that a search finds are those of its targets that have one of its types and meet
its condition.  Since no index is a target twice, and no two documents of an index have the same
key, no document is found twice.  The total is the number of documents that are found, the hits
are some of them, and every aggregation is about all of them: a metric looks at each of them
once, and each of them is in at most one bucket of a histogram, whose children are about the
documents of the bucket.

## Main definitions

* `Database.matched` — the documents that a search finds, each with its index.
* `Aggregation.CountsOnce`, `Aggregations.CountOnce` — a result counts each of some documents
  once.
* `Response.CountsOnce` — a response does, in its total, its hits and its aggregations.

## Main results

* `Database.nodup_matched` — **no document is found twice**.
* `Aggregation.countsOnce_of_value` — the value of an aggregation counts the documents of its
  place once.
* `Database.hits_once` — **the hits of a search show no document twice**.
* `Session.search_countsOnce` — **a search counts no document twice**.
-/

namespace DocSearch

open Sql Steps

/-! ### Documents that are found -/

/-- What tells a stored document from all others. -/
abbrev DocumentKey := String × String × String

/-- The index, the type and the identifier of a candidate. -/
def Candidate.key (c : Candidate) : DocumentKey := (c.index, c.document.docType, c.document.id)

/-- The index, the type and the identifier of a hit. -/
def Hit.key (h : Hit) : DocumentKey := (h.index, h.docType, h.id)

namespace Database

variable {db : Database} {targets : List Target}

/-- The documents that a search finds. -/
def matched (db : Database) (c : SearchContext) (condition : Option Condition) : List Candidate :=
  c.targets.flatMap fun t =>
    (((db.indexTable? t.table).getD []).filter fun d => d.IsSelected c.types condition).map
      (⟨t.index, ·⟩)

theorem matched_documents (db : Database) (c : SearchContext) (condition : Option Condition) :
    (db.matched c condition).map (·.document) =
      (Source.documents c.targets c.types condition).selected db := by
  rw [matched, List.map_flatMap, Source.selected]
  refine congrArg (List.flatMap · c.targets) (funext fun t => ?_)
  rw [List.map_map]
  exact List.map_id _

/-- The keys of all documents of some targets. -/
def storedKeys (db : Database) (targets : List Target) : List DocumentKey :=
  targets.flatMap fun t => ((db.indexTable? t.table).getD []).map fun d => (t.index, d.docType, d.id)

/-- No two documents of different targets have the same key, nor have two of one target. -/
theorem nodup_storedKeys (hdb : db.IsKeyed) (htargets : (targets.map (·.index)).Nodup) :
    (db.storedKeys targets).Nodup := by
  refine List.nodup_flatMap.mpr ⟨fun t _ => ?_, ?_⟩
  · cases hdocs : db.indexTable? t.table with
    | none => exact List.nodup_nil
    | some docs =>
      have hkeys := (hdb.indexTable? hdocs).keys_nodup.map (Prod.mk_right_injective t.index)
      rwa [List.map_map] at hkeys
  · refine (List.pairwise_map.mp htargets).imp fun {t u} hne k ht hu => hne ?_
    obtain ⟨d, -, rfl⟩ := List.mem_map.mp ht
    obtain ⟨e, -, heq⟩ := List.mem_map.mp hu
    exact (congrArg Prod.fst heq).symm

/-- **No document is found twice.** -/
theorem nodup_matched (hdb : db.IsKeyed) {c : SearchContext}
    (htargets : (c.targets.map (·.index)).Nodup) (condition : Option Condition) :
    ((db.matched c condition).map Candidate.key).Nodup := by
  have hkeys : ((db.matched c condition).map Candidate.key).Sublist (db.storedKeys c.targets) := by
    rw [matched, List.map_flatMap, storedKeys]
    generalize c.targets = targets
    induction targets with
    | nil => exact List.Sublist.refl _
    | cons t targets ih =>
      refine List.Sublist.append ?_ ih
      show (List.map Candidate.key (List.map _ _)).Sublist _
      rw [List.map_map]
      exact List.filter_sublist.map _
  exact hkeys.nodup (nodup_storedKeys hdb htargets)

theorem mem_matched {c : SearchContext} {condition : Option Condition} {m : Candidate} :
    m ∈ db.matched c condition ↔
      m.IsIn db c.targets ∧ m.document.IsSelected c.types condition := by
  simp only [matched, List.mem_flatMap, List.mem_map, List.mem_filter, decide_eq_true_iff,
    Candidate.IsIn]
  constructor
  · rintro ⟨t, ht, d, ⟨hd, hselected⟩, rfl⟩
    exact ⟨⟨t, ht, rfl, hd⟩, hselected⟩
  · rintro ⟨⟨t, ht, hindex, hd⟩, hselected⟩
    exact ⟨t, ht, m.document, ⟨hd, hselected⟩, by rw [← hindex]⟩

/-! ### Statements -/

/-- A metric looks at each document of its source once. -/
theorem metric_of_answer (hdb : db.IsKeyed) {m : Metric} {field : String} {source : Source}
    {rows : List Row} (h : db.answer (.metric m field source) = .ok rows) :
    ∃ (read : List Document) (cells : List Cell) (cell : Cell), read.Perm (source.selected db) ∧
      read.mapM (m.cellOf field) = .ok cells ∧ m.summarize cells = .ok cell ∧
      rows = [[cell.toValue]] := by
  have hread := read_of_answer rfl h
  rw [Database.read] at hread
  obtain ⟨cells, hcells, hrows⟩ := bind_eq_ok.mp hread
  obtain ⟨cell, hcell, hrows⟩ := bind_eq_ok.mp hrows
  rw [pure_eq_ok] at hrows
  obtain ⟨hfailure, hfound⟩ := Found.toExcept_mapM_eq_ok hcells
  have hselected := candidates_perm hdb hfailure
  rw [List.filter_eq_self.mpr fun d _ => by simp [passesAll_nil]] at hselected
  refine ⟨_, cells, cell, hselected, mapM_eq_ok.mpr ?_, hcell, hrows.symm⟩
  rw [List.map_map]
  exact hfound

/-- A count is the number of documents of its source. -/
theorem count_of_answer (hdb : db.IsKeyed) {source : Source} {rows : List Row}
    (h : db.answer (.count source) = .ok rows) :
    rows = [[.integer (Int64.ofNat (source.selected db).length)]] := by
  have hread := read_of_answer rfl h
  rw [Database.read] at hread
  obtain ⟨found, hfound, hrows⟩ := bind_eq_ok.mp hread
  rw [pure_eq_ok] at hrows
  rw [Found.toExcept_eq_ok_iff] at hfound
  have hselected := candidates_perm hdb (congrArg Found.failure hfound)
  rw [List.filter_eq_self.mpr fun d _ => by simp [passesAll_nil], hfound] at hselected
  have hlength : found.length = (source.selected db).length := by
    rw [← hselected.length_eq, List.length_map]
    rfl
  rw [← hrows, hlength]

end Database

/-! ### Aggregations -/

mutual

/-- A result counts each of some documents once: a metric sums up what it looks at in each of
them, and a histogram has one bucket for each of their groups, with the number of documents of
the group, while its children count each document of the group once. -/
def Aggregation.CountsOnce (c : SearchContext) : Aggregation → List Document → Json → Prop
  | .metric m field, docs, j =>
    ∃ (read : List Document) (cells : List Cell) (cell : Cell), read.Perm docs ∧
      read.mapM (m.cellOf field) = .ok cells ∧ m.summarize cells = .ok cell ∧
      j = .obj [("value", metricValue m cell.toValue)]
  | .dateHistogram field interval format children, docs, j =>
    ∃ key groups buckets, bucketKey c field interval = .ok key ∧ IsGrouping key docs groups ∧
      j = .obj [("buckets", .arr buckets)] ∧
      List.Forall₂ (fun g bucket =>
        ((∀ name ∈ headerNames, name ∉ Members.names children) →
          bucket.header = g.header format) ∧
        Aggregations.CountOnce c children (docs.filter fun d => d.bucket? key == some g.key) bucket)
        groups buckets

/-- The results of siblings are members of a bucket; of several with one name, the last. -/
def Aggregations.CountOnce (c : SearchContext) :
    List (String × Aggregation) → List Document → Json → Prop
  | [], _, _ => True
  | (name, a) :: rest, docs, bucket =>
    (name ∉ Members.names rest →
      ∃ result, bucket.member? name = some result ∧ Aggregation.CountsOnce c a docs result) ∧
    Aggregations.CountOnce c rest docs bucket

end

section Values

variable {o : Origin}

mutual

/-- **The value of an aggregation counts the documents of its place once.** -/
theorem Aggregation.countsOnce_of_value (hdb : o.database.IsKeyed) : ∀ (a : Aggregation)
    {p : Place} {docs : List Document} {j : Json}, (o.documents p).Perm docs →
      a.value o p = .ok j → a.CountsOnce o.context docs j
  | .metric m field, p, docs, j, hdocs, h => by
    rw [Aggregation.value] at h
    obtain ⟨rows, hrows, h⟩ := bind_eq_ok.mp h
    rw [pure_eq_ok] at h
    obtain ⟨read, cells, cell, hread, hcells, hcell, rfl⟩ :=
      Database.metric_of_answer (Origin.isKeyed_view hdb p) (mapError_eq_ok.mp hrows)
    rw [Aggregation.CountsOnce]
    exact ⟨read, cells, cell, hread.trans hdocs, hcells, hcell, h.symm⟩
  | .dateHistogram field interval format children, p, docs, j, hdocs, h => by
    obtain ⟨key, buckets, hkey, hj, hbuckets⟩ := Aggregation.buckets_of_value hdb hdocs h
    rw [Aggregation.CountsOnce]
    refine ⟨key, groupsOf key docs, buckets, hkey, isGrouping_groupsOf key docs, hj, ?_⟩
    refine hbuckets.imp fun g bucket hbucket => ?_
    obtain ⟨results, hnames, rfl, hbelow⟩ := hbucket
    refine ⟨fun hfree => header_putAll (hnames ▸ hfree) format g, ?_⟩
    rcases hbelow with rfl | ⟨inner, hinner, hresults⟩
    · rw [Aggregations.CountOnce]
      trivial
    · exact Aggregations.countOnce_of_value hdb children _ hinner hresults

theorem Aggregations.countOnce_of_value (hdb : o.database.IsKeyed) :
    ∀ (siblings : List (String × Aggregation)) {p : Place} {docs : List Document}
      {results : List (String × Json)} (members : List (String × Json)),
      (o.documents p).Perm docs → Aggregations.value o siblings p = .ok results →
        Aggregations.CountOnce o.context siblings docs (.obj (Members.putAll members results))
  | [], _, _, _, _, _, _ => by
    rw [Aggregations.CountOnce]
    trivial
  | (name, a) :: rest, p, docs, results, members, hdocs, h => by
    rw [Aggregations.value] at h
    obtain ⟨result, hresult, h⟩ := bind_eq_ok.mp h
    obtain ⟨others, hothers, h⟩ := bind_eq_ok.mp h
    rw [pure_eq_ok] at h
    subst h
    rw [Aggregations.CountOnce]
    refine ⟨fun hname => ⟨result, ?_, Aggregation.countsOnce_of_value hdb a hdocs hresult⟩, ?_⟩
    · rw [← Aggregations.names_value hothers] at hname
      refine (member?_putAll hname (Members.put name result members)).trans ?_
      rw [Members.lookup_put, if_pos rfl]
    · exact Aggregations.countOnce_of_value hdb rest (Members.put name result members) hdocs hothers

end

end Values

/-! ### Hits -/

/-- The key of what a row of a page shows. -/
def rowKey (row : Row) : DocumentKey :=
  let column (i : Nat) : String := (row[i]?.map columnText).getD ""
  (column 0, column 2, column 1)

/-- A hit has the key of its row. -/
theorem key_ofRow {row : Row} {hit : Hit} (h : Hit.ofRow row = .ok hit) : hit.key = rowKey row := by
  rw [Hit.ofRow] at h
  simp only at h
  split at h
  case h_1 =>
    cases h
    rfl
  case h_2 =>
    split at h <;> cases h
    rfl

namespace Database

variable {db : Database} {c : SearchContext} {condition : Option Condition}
  {sort : List SortClause} {size offset : Int64} {hits : Hits}

theorem shownRows_keys (db : Database) (targets : List Target) :
    (targets.flatMap db.shownRows).map rowKey = db.storedKeys targets := by
  rw [List.map_flatMap, storedKeys]
  refine congrArg (List.flatMap · targets) (funext fun t => ?_)
  rw [shownRows, List.map_map]
  rfl

/-- **The hits of a search show no document twice.** -/
theorem hits_once (hdb : db.IsKeyed) (htargets : (c.targets.map (·.index)).Nodup)
    (h : db.hits c condition sort size offset = .ok hits) : (hits.hits.map Hit.key).Nodup := by
  rcases hits_eq_ok h with ⟨-, hnone⟩ | ⟨rows, hrows, hshown⟩
  · rw [hnone]
    exact List.nodup_nil
  · have hkeys : hits.hits.map Hit.key = rows.map rowKey := by
      rw [mapM_eq_ok, ← List.forall₂_eq_eq_eq, List.forall₂_map_left_iff,
        List.forall₂_map_right_iff] at hshown
      rw [← List.forall₂_eq_eq_eq, List.forall₂_map_left_iff, List.forall₂_map_right_iff]
      exact hshown.flip.imp fun hit row hhit => key_ofRow hhit
    obtain ⟨shown, hperm, hsub⟩ := map_subperm (read_page_subperm hdb hrows) rowKey
    rw [shownRows_keys] at hsub
    rw [hkeys]
    exact hperm.nodup_iff.mp (hsub.nodup (nodup_storedKeys hdb htargets))

/-- A count that does not fit wraps around, to a smaller one if it is no negative one. -/
theorem toNat_ofNat_le (n : Nat) : (Int64.ofNat n).toInt.toNat ≤ n := by
  rw [Int64.toInt_ofNat', Int.bmod_def, Int64.size]
  split <;> omega

theorem toNat_ofNat_of_lt {n : Nat} (h : n < 2 ^ 63) : (Int64.ofNat n).toInt.toNat = n := by
  rw [Int64.toInt_ofNat_of_lt h, Int.toNat_natCast]

/-- The total is the number of documents that are found, as far as a count can tell. -/
theorem total_hits (hdb : db.IsKeyed) (h : db.hits c condition sort size offset = .ok hits) :
    hits.total = (Int64.ofNat (db.matched c condition).length).toInt.toNat := by
  rw [Database.hits] at h
  obtain ⟨counted, hcounted, h⟩ := bind_eq_ok.mp h
  have hrows := count_of_answer hdb (mapError_eq_ok.mp hcounted)
  rw [← matched_documents, List.length_map] at hrows
  subst hrows
  split at h
  case isTrue =>
    cases h
    rfl
  case isFalse =>
    obtain ⟨rows, -, h⟩ := bind_eq_ok.mp h
    obtain ⟨shown, -, h⟩ := bind_eq_ok.mp h
    cases h
    rfl

end Database

/-! ### Responses -/

/-- A response counts each of the documents that are found once.  The total is their number,
unless this is more than a count can tell, when it is less.  The hits show some of them, none
twice.  The aggregations count each of them once, if the temporary tables are told apart in
which the buckets of histograms with children are kept. -/
structure Response.CountsOnce (c : SearchContext) (siblings : Aggregations)
    (matched : List Candidate) (told : Prop) (r : Response) : Prop where
  /-- The total is no greater than their number. -/
  total_le : r.hits.total ≤ matched.length
  /-- It is their number if this fits. -/
  total_eq : matched.length < 2 ^ 63 → r.hits.total = matched.length
  /-- The hits show some of them. -/
  shown : ∀ hit ∈ r.hits.hits, ∃ m ∈ matched, Hit.ofRow m.pageRow = .ok hit
  /-- No hit shows the same document as another one. -/
  once : (r.hits.hits.map Hit.key).Nodup
  /-- The aggregations are about all of them. -/
  aggregations : told → List.Forall₂ (fun (s : String × Aggregation) (result : String × Json) =>
    s.1 = result.1 ∧ s.2.CountsOnce c (matched.map (·.document)) result.2) siblings r.aggregations

namespace Session

variable {db : Database} {mappings : Mappings} {options : RequestOptions} {call : SearchCall}
  {p : Prepared} {response : Response}

/-- What a search is prepared with is what it starts from. -/
theorem origin_of_prepared (hp : prepare backend options call ⟨db, false⟩ = .ok p) :
    (Corpus.mk db mappings options).origin call =
      .ok (p.request, ⟨db, p.context mappings call, p.condition⟩) := by
  obtain ⟨hr, htargets, hcondition⟩ := prepare_eq_ok.mp hp
  rw [resolveTargets_result] at htargets
  rw [Corpus.origin_of_targets (v := ⟨db, mappings, options⟩) hr htargets, hcondition]
  rfl

/-- The aggregations of a search have their values, if its tables are told apart. -/
theorem aggregations_eq_value (hp : prepare backend options call ⟨db, false⟩ = .ok p)
    (htold : Distinguished (· ∈ (Corpus.mk db mappings options).tables call))
    (h : ((search backend mappings options call).within (World.start ⟨db, false⟩)).1 = .ok response) :
    Aggregations.value ⟨db, p.context mappings call, p.condition⟩ p.request.aggregations .whole =
      .ok response.aggregations := by
  have hcoherent := Corpus.coherent_tables htold fun t ht => ⟨call, ht, fun _ hu => hu⟩
  have halone : (Corpus.mk db mappings options).alone call = .ok response := h
  rw [Corpus.alone_eq_value hcoherent fun _ ht => ht, Corpus.value,
    origin_of_prepared hp] at halone
  have hresponse : Corpus.response call p.request
      ⟨db, p.context mappings call, p.condition⟩ = .ok response := halone
  obtain ⟨results, hresults, hresponse⟩ := bind_eq_ok.mp hresponse
  obtain ⟨hits, -, hresponse⟩ := bind_eq_ok.mp hresponse
  rw [pure_eq_ok] at hresponse
  rw [← hresponse]
  exact hresults

/-- **A search counts no document twice**, whatever it is prepared with, as long as no index is
a target twice. -/
theorem search_countsOnce (hdb : db.IsKeyed)
    (hp : prepare backend options call ⟨db, false⟩ = .ok p)
    (htargets : (p.targets.map (·.index)).Nodup)
    (h : ((search backend mappings options call).within (World.start ⟨db, false⟩)).1 = .ok response) :
    response.CountsOnce (p.context mappings call) p.request.aggregations
      (db.matched (p.context mappings call) p.condition)
      (Distinguished (· ∈ (Corpus.mk db mappings options).tables call)) := by
  obtain ⟨p', hp', hhits⟩ := search_hits h
  obtain rfl : p = p' := Except.ok.inj (hp.symm.trans hp')
  have htotal := Database.total_hits hdb hhits
  refine ⟨?_, fun hfits => ?_, fun hit hmem => ?_, Database.hits_once hdb htargets hhits, fun htold => ?_⟩
  · rw [htotal]
    exact Database.toNat_ofNat_le _
  · rw [htotal, Database.toNat_ofNat_of_lt hfits]
  · obtain ⟨shown, hin, hselected, hhit⟩ := Database.hits_shown hhits hit hmem
    exact ⟨shown, Database.mem_matched.mpr ⟨hin, hselected⟩, hhit⟩
  · have hvalue := Aggregations.value_eq_ok.mp (aggregations_eq_value hp htold h)
    refine hvalue.imp fun s result hresult => ⟨hresult.1, ?_⟩
    refine Aggregation.countsOnce_of_value hdb s.2 ?_ hresult.2
    rw [Database.matched_documents]
    exact List.Perm.refl _

end Session

end DocSearch
