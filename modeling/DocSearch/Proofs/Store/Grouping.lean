import DocSearch.Proofs.Store.Dependence
import DocSearch.Proofs.Store.Liveness
import Mathlib.Algebra.GroupWithZero.Nat

/-!
# Documents by their buckets

A histogram groups documents by their bucket keys.  The grouping is determined by what it
has to satisfy: there is one group for each key that some document has, the keys ascend,
and the size of a group is the number of documents with its key.  Both the statement that
counts buckets and the statement that fills a table of buckets see the documents that
their source selects, each with its key.

## Main definitions

* `Document.bucket?` — the bucket of a document.
* `Group`, `IsGrouping` — documents grouped by a key.
* `groupsOf` — the grouping of some documents.

## Main results

* `isGrouping_groupsOf`, `IsGrouping.unique` — there is exactly one grouping.
* `IsGrouping.sum_sizes` — the sizes of the groups add up.
* `Database.histogram_groups`, `Database.fill_bucketed` — what the statements give.
* `Database.histogram_total`, `Database.fill_bucketed_total` — when they give something.
-/

namespace DocSearch

open Sql Steps

/-! ### Ascending keys -/

/-- Keys ascend strictly. -/
def Ascending (keys : List Int64) : Prop := keys.Pairwise fun k l => k.toInt < l.toInt

theorem mem_insertKey {key k : Int64} {keys : List Int64} :
    k ∈ insertKey key keys ↔ k = key ∨ k ∈ keys := by
  induction keys with
  | nil => simp [insertKey]
  | cons l keys ih =>
    rw [insertKey]
    split
    · exact List.mem_cons
    · split
      · rename_i h
        subst h
        simp
      · rw [List.mem_cons, ih, List.mem_cons]
        exact or_left_comm

theorem Ascending.insertKey {key : Int64} {keys : List Int64} (h : Ascending keys) :
    Ascending (insertKey key keys) := by
  induction keys with
  | nil => exact List.pairwise_singleton _ _
  | cons l keys ih =>
    have hcons := List.pairwise_cons.mp h
    rw [DocSearch.insertKey]
    split
    · rename_i hlt
      refine List.pairwise_cons.mpr ⟨List.forall_mem_cons.mpr ⟨hlt, fun k hk => ?_⟩, h⟩
      exact Int.lt_trans hlt (hcons.1 k hk)
    · split
      · exact h
      · rename_i hnot hne
        refine List.pairwise_cons.mpr ⟨fun k hk => ?_, ih hcons.2⟩
        rcases mem_insertKey.mp hk with rfl | hk
        · -- neither smaller nor the same
          have hdifferent : k.toInt ≠ l.toInt := fun heq => hne (Int64.toInt_inj.mp heq)
          omega
        · exact hcons.1 k hk

theorem mem_distinctKeys {k : Int64} {keys : List Int64} : k ∈ distinctKeys keys ↔ k ∈ keys := by
  induction keys with
  | nil => exact Iff.rfl
  | cons l keys ih =>
    rw [List.mem_cons, ← ih]
    exact mem_insertKey

theorem ascending_distinctKeys (keys : List Int64) : Ascending (distinctKeys keys) := by
  induction keys with
  | nil => exact List.Pairwise.nil
  | cons l keys ih => exact ih.insertKey

theorem Ascending.nodup {keys : List Int64} (h : Ascending keys) : keys.Nodup := by
  refine List.Pairwise.imp (fun {k l} hlt => ?_) h
  rintro rfl
  exact Int.lt_irrefl _ hlt

/-- Ascending keys are told by which there are. -/
theorem Ascending.ext {keys keys' : List Int64} (h : Ascending keys) (h' : Ascending keys')
    (hmem : ∀ k, k ∈ keys ↔ k ∈ keys') : keys = keys' := by
  refine List.Perm.eq_of_pairwise (fun k l _ _ hkl hlk => ?_) h h' ?_
  · exact absurd (Int.lt_trans hkl hlk) (Int.lt_irrefl _)
  · exact (List.perm_ext_iff_of_nodup h.nodup h'.nodup).mpr hmem

theorem distinctKeys_perm {keys keys' : List Int64} (h : keys.Perm keys') :
    distinctKeys keys = distinctKeys keys' := by
  refine (ascending_distinctKeys _).ext (ascending_distinctKeys _) fun k => ?_
  rw [mem_distinctKeys, mem_distinctKeys]
  exact h.mem_iff

theorem sum_counts_nil (ks : List Int64) :
    (ks.map fun k => ([] : List Int64).count k).sum = 0 := by
  induction ks with
  | nil => rfl
  | cons k ks ih => simp

theorem sum_counts_cons (l : Int64) (keys ks : List Int64) :
    (ks.map fun k => (l :: keys).count k).sum =
      (ks.map fun k => keys.count k).sum + ks.count l := by
  induction ks with
  | nil => rfl
  | cons k ks ih =>
    have hsame : (l == k) = (k == l) := BEq.comm
    rw [List.map_cons, List.sum_cons, ih, List.map_cons, List.sum_cons, List.count_cons,
      List.count_cons, hsame]
    omega

/-- How often each of some keys occurs, summed up, is how many of the keys occur. -/
theorem sum_counts {keys ks : List Int64} (hnodup : ks.Nodup) (hmem : ∀ k ∈ keys, k ∈ ks) :
    (ks.map fun k => keys.count k).sum = keys.length := by
  induction keys with
  | nil => exact sum_counts_nil ks
  | cons l keys ih =>
    rw [List.forall_mem_cons] at hmem
    have honce : ks.count l = 1 := by rw [hnodup.count, if_pos hmem.1]
    rw [sum_counts_cons, ih hmem.2, honce, List.length_cons]

/-! ### Groups -/

/-- The bucket of a document, unless its key is missing. -/
def Document.bucket? (key : BucketKey) (d : Document) : Option Int64 :=
  (d.bucketKey key).toOption.bind Cell.bucket?

/-- A bucket and how many documents are in it. -/
structure Group where
  /-- The bucket. -/
  key : Int64
  /-- How many documents there are. -/
  size : Nat
  deriving DecidableEq, Repr

/-- Some documents, grouped by a key. -/
structure IsGrouping (key : BucketKey) (docs : List Document) (groups : List Group) : Prop where
  ascending : Ascending (groups.map (·.key))
  exists_iff : ∀ k, (∃ g ∈ groups, g.key = k) ↔ ∃ d ∈ docs, d.bucket? key = some k
  size_eq : ∀ g ∈ groups, g.size = docs.countP fun d => d.bucket? key == some g.key

/-- The grouping of some documents. -/
def groupsOf (key : BucketKey) (docs : List Document) : List Group :=
  (distinctKeys (docs.filterMap (·.bucket? key))).map fun k =>
    ⟨k, docs.countP fun d => d.bucket? key == some k⟩

section Groups

variable {key : BucketKey} {docs docs' : List Document} {groups groups' : List Group}

theorem keys_groupsOf (key : BucketKey) (docs : List Document) :
    (groupsOf key docs).map (·.key) = distinctKeys (docs.filterMap (·.bucket? key)) := by
  rw [groupsOf, List.map_map]
  exact List.map_id _

theorem isGrouping_groupsOf (key : BucketKey) (docs : List Document) :
    IsGrouping key docs (groupsOf key docs) := by
  refine ⟨?_, fun k => ?_, fun g hg => ?_⟩
  · rw [keys_groupsOf]
    exact ascending_distinctKeys _
  · have hkeys := congrArg (k ∈ ·) (keys_groupsOf key docs)
    simp only [List.mem_map, eq_iff_iff, mem_distinctKeys, List.mem_filterMap] at hkeys
    exact hkeys
  · obtain ⟨k, -, rfl⟩ := List.mem_map.mp hg
    rfl

theorem IsGrouping.perm (h : IsGrouping key docs groups) (hdocs : docs.Perm docs') :
    IsGrouping key docs' groups := by
  refine ⟨h.ascending, fun k => ?_, fun g hg => ?_⟩
  · simp only [h.exists_iff, hdocs.mem_iff]
  · rw [h.size_eq g hg, hdocs.countP_eq]

/-- **Documents are grouped in one way only.** -/
theorem IsGrouping.unique (h : IsGrouping key docs groups) (h' : IsGrouping key docs groups') :
    groups = groups' := by
  have hkeys : groups.map (·.key) = groups'.map (·.key) := by
    refine h.ascending.ext h'.ascending fun k => ?_
    rw [List.mem_map, List.mem_map, h.exists_iff, h'.exists_iff]
  -- the key of a group determines the group
  have hself : ∀ {gs : List Group}, IsGrouping key docs gs →
      gs = (gs.map (·.key)).map fun k => ⟨k, docs.countP fun d => d.bucket? key == some k⟩ := by
    intro gs hgs
    rw [List.map_map]
    refine (List.map_id gs).symm.trans (List.map_congr_left fun g hg => ?_)
    obtain ⟨k, size⟩ := g
    exact congrArg (Group.mk k) (hgs.size_eq _ hg)
  rw [hself h, hself h', hkeys]

theorem groupsOf_perm (hdocs : docs.Perm docs') : groupsOf key docs = groupsOf key docs' :=
  ((isGrouping_groupsOf key docs).perm hdocs).unique (isGrouping_groupsOf key docs')

/-- **The sizes of the groups add up** to the number of documents that have a key. -/
theorem IsGrouping.sum_sizes (h : IsGrouping key docs groups) :
    (groups.map (·.size)).sum = docs.countP fun d => (d.bucket? key).isSome := by
  rw [h.unique (isGrouping_groupsOf key docs), groupsOf, List.map_map]
  have hcount : ∀ k, docs.countP (fun d => d.bucket? key == some k) =
      (docs.filterMap (·.bucket? key)).count k := fun k => List.count_filterMap.symm
  simp only [Function.comp_def, hcount]
  rw [sum_counts (ascending_distinctKeys _).nodup fun k hk => mem_distinctKeys.mpr hk,
    List.length_filterMap_eq_countP]

end Groups

/-! ### Counting buckets -/

/-- The row of a group. -/
def Group.row (g : Group) : Row := [.integer g.key, .integer (Int64.ofNat g.size)]

theorem countRows_eq (key : BucketKey) (docs : List Document) :
    (distinctKeys (docs.filterMap (·.bucket? key))).map (countRow (docs.filterMap (·.bucket? key))) =
      (groupsOf key docs).map Group.row := by
  rw [groupsOf, List.map_map]
  refine List.map_congr_left fun k _ => ?_
  rw [countRow, List.count_filterMap]
  rfl

/-- A document that has a bucket passes the check that it has one. -/
theorem Document.passes_keyed {key : BucketKey} {d : Document} {k : Int64}
    (h : d.bucket? key = some k) : d.PassesAll [.keyed key] := by
  intro check hcheck
  rw [List.mem_singleton.mp hcheck, Check.Passes]
  rw [bucket?] at h
  cases hcell : d.bucketKey key with
  | error e =>
    rw [hcell] at h
    cases h
  | ok cell =>
    rintro rfl
    rw [hcell] at h
    cases h

theorem filterMap_bucket?_filter (key : BucketKey) (docs : List Document) :
    (docs.filter fun d => d.PassesAll [.keyed key]).filterMap (·.bucket? key) =
      docs.filterMap (·.bucket? key) := by
  rw [List.filterMap_filter]
  refine List.filterMap_congr fun d _ => ?_
  cases hbucket : d.bucket? key with
  | none => exact ite_self _
  | some k => exact if_pos (decide_eq_true (Document.passes_keyed hbucket))

namespace Database

variable {db : Database} {key : BucketKey} {source : Source}

/-- **The statement that counts buckets groups the documents that are selected.** -/
theorem histogram_groups (hdb : db.IsKeyed) {rows : List Row}
    (h : db.answer (.histogram key source) = .ok rows) :
    rows = (groupsOf key (source.selected db)).map Group.row := by
  have hread : db.read (.histogram key source) = .ok rows := by
    rw [answer] at h
    cases hrefusal : (Statement.histogram key source).refusal? with
    | none => rwa [hrefusal] at h
    | some e =>
      rw [hrefusal] at h
      cases h
  rw [read] at hread
  obtain ⟨cells, hcells, hrows⟩ := bind_eq_ok.mp hread
  rw [pure_eq_ok] at hrows
  obtain ⟨hfailure, hfound⟩ := Found.toExcept_mapM_eq_ok hcells
  have hselected := candidates_perm hdb hfailure
  -- the cells that are no buckets are those of documents without one
  have hbuckets : cells.filterMap Cell.bucket? =
      ((db.candidates { order := [⟨none, false⟩], columns := 2 } [key.field] [.keyed key]
        source).rows.map (·.document)).filterMap (·.bucket? key) := by
    have hoptions := congrArg (List.filterMap fun x : Except EvaluationError Cell =>
      x.toOption.bind Cell.bucket?) hfound
    rw [List.filterMap_map, List.filterMap_map] at hoptions
    rw [List.filterMap_map]
    exact hoptions.symm
  have hkeys : (cells.filterMap Cell.bucket?).Perm
      ((source.selected db).filterMap (·.bucket? key)) := by
    rw [hbuckets, ← filterMap_bucket?_filter key (source.selected db)]
    exact hselected.filterMap _
  rw [← hrows, distinctKeys_perm hkeys, ← countRows_eq]
  refine List.map_congr_left fun k _ => ?_
  rw [countRow, countRow, hkeys.count_eq]

end Database

/-! ### Tables of buckets -/

/-- A document as a row of a table of buckets. -/
def Candidate.bucketedRow (key : BucketKey) (c : Candidate) : Except EvaluationError TemporaryRow := do
  return ⟨(← c.document.bucketKey key).bucket?, c.document⟩

theorem Candidate.bucketedRow_eq_ok {key : BucketKey} {c : Candidate} {r : TemporaryRow}
    (h : c.bucketedRow key = .ok r) :
    r.document = c.document ∧ r.bucket = c.document.bucket? key := by
  obtain ⟨cell, hcell, hrow⟩ := bind_eq_ok.mp h
  rw [pure_eq_ok] at hrow
  rw [← hrow, Document.bucket?, hcell]
  exact ⟨rfl, rfl⟩

/-- Every document gives a row that holds it, with its bucket. -/
theorem rows_of_bucketedRow {key : BucketKey} {cs : List Candidate} {rows : List TemporaryRow}
    (h : cs.map (·.bucketedRow key) = rows.map .ok) :
    rows.map (·.document) = cs.map (·.document) ∧
      ∀ r ∈ rows, r.bucket = r.document.bucket? key := by
  induction cs generalizing rows with
  | nil =>
    rw [List.map_nil, List.nil_eq, List.map_eq_nil_iff] at h
    subst h
    exact ⟨rfl, fun r hr => nomatch hr⟩
  | cons c cs ih =>
    cases rows with
    | nil => cases h
    | cons r rows =>
      rw [List.map_cons, List.map_cons, List.cons.injEq] at h
      obtain ⟨hdocument, hbucket⟩ := Candidate.bucketedRow_eq_ok h.1
      obtain ⟨hdocuments, hbuckets⟩ := ih h.2
      refine ⟨congrArg₂ List.cons hdocument hdocuments, List.forall_mem_cons.mpr ⟨?_, hbuckets⟩⟩
      rw [hbucket, hdocument]

namespace Database

variable {db : Database} {key : BucketKey} {source : Source}

/-- The documents that a table of buckets is filled from. -/
def bucketedCandidates (db : Database) : Source → Found Candidate
  | .table name => db.inTemporary name []
  | .documents targets types filter => db.eachInTurn (sourceChecks types filter) targets

theorem select_bucketed (db : Database) (key : BucketKey) (source : Source) :
    db.select (.bucketed key source) =
      ((db.bucketedCandidates source).mapM (·.bucketedRow key)).toExcept := by
  cases source <;> rfl

theorem bucketedCandidates_perm (hdb : db.IsKeyed)
    (hfailure : (db.bucketedCandidates source).failure = none) :
    ((db.bucketedCandidates source).rows.map (·.document)).Perm (source.selected db) := by
  cases source with
  | table name =>
    rw [bucketedCandidates, inTemporary_rows hfailure, List.filter_eq_self.mpr]
    exact fun d _ => decide_eq_true passesAll_nil
  | documents targets types filter => exact eachInTurn_selected hdb hfailure

/-- **A table of buckets holds the documents that are selected, each with its bucket.** -/
theorem fill_bucketed (hdb : db.IsKeyed) {name : String} {rows : List TemporaryRow}
    (h : db.fill name (.bucketed key source) = .ok rows) :
    (rows.map (·.document)).Perm (source.selected db) ∧
      ∀ r ∈ rows, r.bucket = r.document.bucket? key := by
  have hselect : db.select (.bucketed key source) = .ok rows := by
    rw [fill] at h
    cases hrefusal : (Statement.create name (.bucketed key source)).refusal? with
    | none => rwa [hrefusal] at h
    | some e =>
      rw [hrefusal] at h
      cases h
  rw [select_bucketed] at hselect
  obtain ⟨hfailure, hrows⟩ := Found.toExcept_mapM_eq_ok hselect
  obtain ⟨hdocuments, hbuckets⟩ := rows_of_bucketedRow hrows
  rw [hdocuments]
  exact ⟨bucketedCandidates_perm hdb hfailure, hbuckets⟩

/-! ### Statements that give a result -/

/-- The table of a target is there, the tests of a condition can be made of its documents,
and they have a bucket key or none. -/
def CanGroup (db : Database) (key : BucketKey) (types : List String) (filter : Option Condition)
    (t : Target) : Prop :=
  ∃ docs, db.indexTable? t.table = some docs ∧
    (∀ c ∈ filter, c.AllTests (Test.IsTotalOn docs (fixedBy types filter))) ∧
    key.IsTotalOn docs (fixedBy types filter)

theorem mem_table_of_mem_selected {targets : List Target} {types : List String}
    {filter : Option Condition} {d : Document}
    (h : d ∈ (Source.documents targets types filter).selected db) :
    ∃ t ∈ targets, ∃ docs, db.indexTable? t.table = some docs ∧ d ∈ docs := by
  obtain ⟨t, ht, hd⟩ := List.mem_flatMap.mp h
  cases hdocs : db.indexTable? t.table with
  | none =>
    rw [hdocs] at hd
    cases hd
  | some docs =>
    rw [hdocs] at hd
    exact ⟨t, ht, docs, hdocs, (List.mem_filter.mp hd).1⟩

section Total

variable {targets : List Target} {types : List String} {filter : Option Condition}

theorem exists_bucketKey (ht : ∀ t ∈ targets, db.CanGroup key types filter t) {d : Document}
    (hd : d ∈ (Source.documents targets types filter).selected db) :
    ∃ cell, d.bucketKey key = .ok cell := by
  obtain ⟨t, hmem, docs, hdocs, hd⟩ := mem_table_of_mem_selected hd
  obtain ⟨docs', hdocs', -, hkeys⟩ := ht t hmem
  cases hdocs.symm.trans hdocs'
  exact hkeys d (.inl hd)

/-- **The statement that counts buckets gives a result**, unless it is refused. -/
theorem histogram_total (hdb : db.IsKeyed) (ht : ∀ t ∈ targets, db.CanGroup key types filter t)
    (hrefusal : (Statement.histogram key (.documents targets types filter)).refusal? = none)
    (hbelow : 1 < targets.length →
      refusedBelow (sourceChecks types filter ++ [.keyed key]) = false) :
    ∃ rows, db.answer (.histogram key (.documents targets types filter)) = .ok rows := by
  have hcheck : ∀ t ∈ targets,
      db.CanCheck (fixedBy types filter) (sourceChecks types filter ++ [.keyed key]) t := by
    intro t hmem
    obtain ⟨docs, hdocs, htests, hkeys⟩ := ht t hmem
    refine ⟨docs, hdocs, List.forall_mem_append.mpr ⟨sourceChecks_isTotalOn htests, ?_⟩⟩
    exact List.forall_mem_singleton.mpr hkeys
  have hfailure : (db.candidates { order := [⟨none, false⟩], columns := 2 } [key.field]
      [.keyed key] (.documents targets types filter)).failure = none :=
    candidates_total hdb hcheck hbelow
  have hselected := candidates_perm hdb hfailure
  have hcells := Found.mapM_total (f := fun c => c.document.bucketKey key) hfailure fun c hc => by
    have hd := hselected.mem_iff.mp (List.mem_map_of_mem hc)
    exact exists_bucketKey ht (List.mem_filter.mp hd).1
  have hread := Found.toExcept_total hcells
  rw [answer, hrefusal]
  simp only [Statement.isCommand, read, hread]
  exact ⟨_, rfl⟩

/-- **The statement that fills a table of buckets gives a result**, unless it is refused. -/
theorem fill_bucketed_total (hdb : db.IsKeyed) {name : String}
    (ht : ∀ t ∈ targets, db.CanGroup key types filter t)
    (hrefusal : (Statement.create name
      (.bucketed key (.documents targets types filter))).refusal? = none) :
    ∃ rows, db.fill name (.bucketed key (.documents targets types filter)) = .ok rows := by
  have hcheck : ∀ t ∈ targets,
      db.CanCheck (fixedBy types filter) (sourceChecks types filter) t := by
    intro t hmem
    obtain ⟨docs, hdocs, htests, -⟩ := ht t hmem
    exact ⟨docs, hdocs, sourceChecks_isTotalOn htests⟩
  have hfailure := eachInTurn_total hcheck
  have hselected := eachInTurn_selected hdb hfailure
  have hrows := Found.mapM_total (f := (·.bucketedRow key)) hfailure fun c hc => by
    obtain ⟨cell, hcell⟩ :=
      exists_bucketKey ht (hselected.mem_iff.mp (List.mem_map_of_mem hc))
    exact ⟨⟨cell.bucket?, c.document⟩, by rw [Candidate.bucketedRow, hcell]; rfl⟩
  have hselect := Found.toExcept_total hrows
  rw [fill, hrefusal, select_bucketed]
  exact ⟨_, hselect⟩

end Total

end Database

end DocSearch
