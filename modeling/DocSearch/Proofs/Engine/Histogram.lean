import DocSearch.Proofs.Engine.Naming
import DocSearch.Proofs.Store.Grouping
import Mathlib.Data.List.Forall2

/-!
# Histograms group documents

A histogram without children is one statement that counts buckets.  With children, the
rows of its source are put into a table of buckets, and the rows of each bucket into a
table of their own.  Either way, and at any depth, a histogram gives one bucket for each
group of its documents by their keys, and the children of a bucket are about the documents
of its group.

## Main definitions

* `Origin.documents` — the documents of a place.
* `Group.header` — what the bucket of a group says of itself.
* `Aggregation.Groups` — a result groups documents, and so do the results in its buckets.

## Main results

* `Aggregation.buckets_of_value` — the value of a histogram has a bucket for each group.
* `Aggregation.groups_of_value` — the value of an aggregation groups the documents of its
  place.
* `Session.run_value` — a walk that has a database for itself comes to the value.
* `dateHistogram_groups` — a histogram is a group-by on both of its paths.
-/

namespace DocSearch

open Sql Steps

/-! ### The documents of a place -/

namespace Origin

/-- The documents of a place. -/
def documents (o : Origin) (p : Place) : List Document := (o.source p).selected (o.view p)

variable {o : Origin} {p : Place} {key : BucketKey} {rows : List TemporaryRow}

theorem isKeyed_view (hdb : o.database.IsKeyed) (p : Place) : (o.view p).IsKeyed := by
  rw [Database.IsKeyed, o.indices_view p]
  exact hdb

/-- The rows of a table of buckets are the documents of the place, each with its bucket. -/
theorem bucketed_rows (hdb : o.database.IsKeyed) (h : (o.bucketed p key).rows = .ok rows) :
    (rows.map (·.document)).Perm (o.documents p) ∧ ∀ r ∈ rows, r.bucket = r.document.bucket? key :=
  Database.fill_bucketed (isKeyed_view hdb p) h

theorem buckets_eq (hbuckets : ∀ r ∈ rows, r.bucket = r.document.bucket? key) :
    rows.filterMap (·.bucket) = (rows.map (·.document)).filterMap (·.bucket? key) := by
  rw [List.filterMap_map]
  exact List.filterMap_congr hbuckets

theorem rowsInBucket_documents (hbuckets : ∀ r ∈ rows, r.bucket = r.document.bucket? key)
    (k : Int64) : (rowsInBucket k rows).map (·.document) =
      (rows.map (·.document)).filter fun d => d.bucket? key == some k := by
  rw [rowsInBucket, List.map_map, List.filter_map]
  refine congrArg (List.map _) (List.filter_congr fun r hr => ?_)
  rw [hbuckets r hr]
  rfl

/-- The keys of a table of buckets are those of the groups. -/
theorem bucketKeys_eq (hdb : o.database.IsKeyed) (h : (o.bucketed p key).rows = .ok rows) :
    bucketKeys rows = distinctKeys ((o.documents p).filterMap (·.bucket? key)) := by
  obtain ⟨hdocuments, hbuckets⟩ := bucketed_rows hdb h
  rw [bucketKeys, buckets_eq hbuckets]
  exact distinctKeys_perm (hdocuments.filterMap _)

/-- The rows of a bucket are the documents of its group. -/
theorem rowsInBucket_perm (hdb : o.database.IsKeyed) (h : (o.bucketed p key).rows = .ok rows)
    (k : Int64) : ((rowsInBucket k rows).map (·.document)).Perm
      ((o.documents p).filter fun d => d.bucket? key == some k) := by
  obtain ⟨hdocuments, hbuckets⟩ := bucketed_rows hdb h
  rw [rowsInBucket_documents hbuckets]
  exact hdocuments.filter _

theorem documents_bucket (hdb : o.database.IsKeyed) (h : (o.bucketed p key).rows = .ok rows)
    (k : Int64) : (o.documents (.bucket p key k)).Perm
      ((o.documents p).filter fun d => d.bucket? key == some k) := by
  have hselected : o.documents (.bucket p key k) = (rowsInBucket k rows).map (·.document) := by
    rw [documents, view_bucket h, o.source_bucket p key rows k, Source.selected,
      Database.temporaryTable?_withOnly]
    rfl
  rw [hselected]
  exact rowsInBucket_perm hdb h k

end Origin

/-! ### Results -/

/-- The names of the members that every bucket starts with. -/
def headerNames : List String := ["key_as_string", "key", "doc_count"]

/-- What a bucket says of itself. -/
def Json.header (bucket : Json) : Option Json × Option Json × Option Json :=
  (bucket.member? "key_as_string", bucket.member? "key", bucket.member? "doc_count")

/-- What the bucket of a group says of itself. -/
def Group.header (format : Option DateFormat) (g : Group) : Option Json × Option Json × Option Json :=
  (format.map fun f => .str (f.format g.key.toInt), some (.ofInt g.key.toInt),
    some (.ofInt (Int64.ofNat g.size).toInt))

mutual

/-- A result is about some documents: a histogram has one bucket for each of their groups,
which says what it is unless a child has the name of what it says, and the children of a
bucket are about the documents of its group. -/
def Aggregation.Groups (c : SearchContext) : Aggregation → List Document → Json → Prop
  | .metric _ _, _, _ => True
  | .dateHistogram field interval format children, docs, j =>
    ∃ key groups buckets, bucketKey c field interval = .ok key ∧ IsGrouping key docs groups ∧
      j = .obj [("buckets", .arr buckets)] ∧
      List.Forall₂ (fun g bucket =>
        ((∀ name ∈ headerNames, name ∉ Members.names children) →
          bucket.header = g.header format) ∧
        Aggregations.Groups c children (docs.filter fun d => d.bucket? key == some g.key) bucket)
        groups buckets

/-- The results of siblings are members of a bucket; of several with one name, the last. -/
def Aggregations.Groups (c : SearchContext) :
    List (String × Aggregation) → List Document → Json → Prop
  | [], _, _ => True
  | (name, a) :: rest, docs, bucket =>
    (name ∉ Members.names rest →
      ∃ result, bucket.member? name = some result ∧ Aggregation.Groups c a docs result) ∧
    Aggregations.Groups c rest docs bucket

end

theorem member?_putAll {name : String} {results : List (String × Json)}
    (h : name ∉ Members.names results) (members : List (String × Json)) :
    (Json.obj (Members.putAll members results)).member? name = members.lookup name :=
  Members.lookup_putAll h members

/-- The results of children do not change what a bucket says of itself. -/
theorem header_putAll {results : List (String × Json)}
    (h : ∀ name ∈ headerNames, name ∉ Members.names results) (format : Option DateFormat) (g : Group) :
    (Json.obj (Members.putAll (bucketMembers format g.key (Int64.ofNat g.size)) results)).header =
      g.header format := by
  have hkeep : ∀ name ∈ headerNames,
      (Json.obj (Members.putAll (bucketMembers format g.key (Int64.ofNat g.size)) results)).member?
        name = (bucketMembers format g.key (Int64.ofNat g.size)).lookup name :=
    fun name hname => member?_putAll (h name hname) _
  rw [Json.header, hkeep "key_as_string" (by simp [headerNames]), hkeep "key" (by simp [headerNames]),
    hkeep "doc_count" (by simp [headerNames])]
  cases format with
  | none => rfl
  | some f => rfl

/-! ### Values -/

section Values

variable {o : Origin} {p : Place} {key : BucketKey} {docs : List Document}
  {format : Option DateFormat} {buckets : List Json}

theorem filterMap_groupedBucket? (format : Option DateFormat) (groups : List Group) :
    (groups.map Group.row).filterMap (groupedBucket? format) =
      groups.map fun g => .obj (bucketMembers format g.key (Int64.ofNat g.size)) := by
  rw [List.filterMap_map, ← List.filterMap_eq_map]
  rfl

/-- The buckets of the statement that counts them. -/
theorem groupedBuckets_eq (hdb : o.database.IsKeyed) (hdocs : (o.documents p).Perm docs)
    (h : o.groupedBuckets p key format = .ok buckets) :
    buckets = (groupsOf key docs).map fun g =>
      .obj (bucketMembers format g.key (Int64.ofNat g.size)) := by
  obtain ⟨rows, hrows, hbuckets⟩ := bind_eq_ok.mp h
  rw [pure_eq_ok] at hbuckets
  have hanswer : (o.view p).answer (.histogram key (o.source p)) = .ok rows :=
    mapError_eq_ok.mp hrows
  have hgroups := Database.histogram_groups (Origin.isKeyed_view hdb p) hanswer
  rw [← hbuckets, hgroups, filterMap_groupedBucket?, ← groupsOf_perm hdocs]
  rfl

/-- The buckets that are filled: there is one for each group. -/
theorem filledBuckets_groups (hdb : o.database.IsKeyed) (hdocs : (o.documents p).Perm docs)
    {children : Int64 → Except ExecutionError (List (String × Json))}
    (h : o.filledBuckets p key format children = .ok buckets) :
    (∃ rows, (o.bucketed p key).rows = .ok rows) ∧ List.Forall₂ (fun g bucket =>
      ∃ results, children g.key = .ok results ∧
        bucket = .obj (Members.putAll (bucketMembers format g.key (Int64.ofNat g.size)) results))
      (groupsOf key docs) buckets := by
  obtain ⟨rows, hrows, hbuckets⟩ := bind_eq_ok.mp h
  have hrows := mapError_eq_ok.mp hrows
  refine ⟨⟨rows, hrows⟩, ?_⟩
  rw [mapM_eq_ok, ← List.forall₂_eq_eq_eq, List.forall₂_map_left_iff, List.forall₂_map_right_iff,
    Origin.bucketKeys_eq hdb hrows, distinctKeys_perm (hdocs.filterMap _)] at hbuckets
  rw [groupsOf, List.forall₂_map_left_iff]
  refine hbuckets.imp fun k bucket hbucket => ?_
  -- the rows that are counted are the documents of the group
  have hsize : (rowsInBucket k rows).length = docs.countP fun d => d.bucket? key == some k := by
    rw [← List.length_map (f := fun r : TemporaryRow => r.document),
      (Origin.rowsInBucket_perm hdb hrows k).length_eq, ← List.countP_eq_length_filter,
      hdocs.countP_eq]
  obtain ⟨results, hresults, hbucket⟩ := bind_eq_ok.mp hbucket
  rw [pure_eq_ok, hsize] at hbucket
  exact ⟨results, hresults, hbucket.symm⟩

theorem Aggregations.names_value {siblings : List (String × Aggregation)} {p : Place}
    {results : List (String × Json)} (h : Aggregations.value o siblings p = .ok results) :
    Members.names results = Members.names siblings := by
  induction siblings generalizing results with
  | nil =>
    rw [Aggregations.value, pure_eq_ok] at h
    rw [← h]
    rfl
  | cons named rest ih =>
    rw [Aggregations.value] at h
    obtain ⟨result, -, h⟩ := bind_eq_ok.mp h
    obtain ⟨results, hresults, h⟩ := bind_eq_ok.mp h
    rw [pure_eq_ok] at h
    rw [← h]
    exact congrArg (named.1 :: ·) (ih hresults)

/-- **The value of a histogram has a bucket for each group** of the documents of its place, in
which its children have their values over the documents of the group. -/
theorem Aggregation.buckets_of_value (hdb : o.database.IsKeyed) (hdocs : (o.documents p).Perm docs)
    {field : String} {interval : Interval} {children : List (String × Aggregation)} {j : Json}
    (h : (Aggregation.dateHistogram field interval format children).value o p = .ok j) :
    ∃ key buckets, bucketKey o.context field interval = .ok key ∧
      j = .obj [("buckets", .arr buckets)] ∧ List.Forall₂ (fun g bucket =>
        ∃ results, Members.names results = Members.names children ∧
          bucket = .obj (Members.putAll (bucketMembers format g.key (Int64.ofNat g.size)) results) ∧
          (children = [] ∨
            ∃ inner, (o.documents inner).Perm (docs.filter fun d => d.bucket? key == some g.key) ∧
              Aggregations.value o children inner = .ok results))
        (groupsOf key docs) buckets := by
  rw [Aggregation.value] at h
  obtain ⟨key, hkey, h⟩ := bind_eq_ok.mp h
  cases hempty : children.isEmpty with
  | true =>
    rw [hempty] at h
    obtain ⟨buckets, hbuckets, h⟩ := bind_eq_ok.mp h
    rw [pure_eq_ok] at h
    refine ⟨key, buckets, hkey, h.symm, ?_⟩
    rw [groupedBuckets_eq hdb hdocs hbuckets, List.forall₂_map_right_iff, List.forall₂_same]
    rw [List.isEmpty_iff.mp hempty]
    exact fun g _ => ⟨[], rfl, rfl, .inl rfl⟩
  | false =>
    rw [hempty] at h
    obtain ⟨buckets, hbuckets, h⟩ := bind_eq_ok.mp h
    rw [pure_eq_ok] at h
    refine ⟨key, buckets, hkey, h.symm, ?_⟩
    obtain ⟨⟨rows, hrows⟩, hgroups⟩ := filledBuckets_groups hdb hdocs hbuckets
    refine hgroups.imp fun g bucket hbucket => ?_
    obtain ⟨results, hresults, hbucket⟩ := hbucket
    have hplace := (Origin.documents_bucket hdb hrows g.key).trans (hdocs.filter _)
    exact ⟨results, Aggregations.names_value hresults, hbucket, .inr ⟨_, hplace, hresults⟩⟩

mutual

/-- **The value of an aggregation groups the documents of its place.** -/
theorem Aggregation.groups_of_value (hdb : o.database.IsKeyed) : ∀ (a : Aggregation) {p : Place}
    {docs : List Document} {j : Json}, (o.documents p).Perm docs → a.value o p = .ok j →
      a.Groups o.context docs j
  | .metric _ _, _, _, _, _, _ => by
    rw [Aggregation.Groups]
    trivial
  | .dateHistogram field interval format children, p, docs, j, hdocs, h => by
    obtain ⟨key, buckets, hkey, hj, hbuckets⟩ := Aggregation.buckets_of_value hdb hdocs h
    rw [Aggregation.Groups]
    refine ⟨key, groupsOf key docs, buckets, hkey, isGrouping_groupsOf key docs, hj, ?_⟩
    refine hbuckets.imp fun g bucket hbucket => ?_
    obtain ⟨results, hnames, rfl, hbelow⟩ := hbucket
    refine ⟨fun hfree => header_putAll (hnames ▸ hfree) format g, ?_⟩
    rcases hbelow with rfl | ⟨inner, hinner, hresults⟩
    · rw [Aggregations.Groups]
      trivial
    · exact Aggregations.groups_of_value hdb children _ hinner hresults

theorem Aggregations.groups_of_value (hdb : o.database.IsKeyed) :
    ∀ (siblings : List (String × Aggregation)) {p : Place} {docs : List Document}
      {results : List (String × Json)} (members : List (String × Json)),
      (o.documents p).Perm docs → Aggregations.value o siblings p = .ok results →
        Aggregations.Groups o.context siblings docs (.obj (Members.putAll members results))
  | [], _, _, _, _, _, _ => by
    rw [Aggregations.Groups]
    trivial
  | (name, a) :: rest, p, docs, results, members, hdocs, h => by
    rw [Aggregations.value] at h
    obtain ⟨result, hresult, h⟩ := bind_eq_ok.mp h
    obtain ⟨others, hothers, h⟩ := bind_eq_ok.mp h
    rw [pure_eq_ok] at h
    subst h
    rw [Aggregations.Groups]
    refine ⟨fun hname => ⟨result, ?_, Aggregation.groups_of_value hdb a hdocs hresult⟩, ?_⟩
    · rw [← Aggregations.names_value hothers] at hname
      refine (member?_putAll hname (Members.put name result members)).trans ?_
      rw [Members.lookup_put, if_pos rfl]
    · exact Aggregations.groups_of_value hdb rest (Members.put name result members) hdocs hothers

end

end Values

/-! ### Walks -/

namespace Origin

variable {o : Origin} {a : Aggregation} {field : String} {interval : Interval} {key : BucketKey}
  {format : Option DateFormat} {children : List (String × Aggregation)}

/-- The documents that a search selects. -/
def selected (o : Origin) : List Document := (o.source .whole).selected o.database

/-- What the walk of an aggregation gives if it has the database for itself, whatever
temporary tables are left over in it. -/
def outcome (o : Origin) (a : Aggregation) : Except ExecutionError Json :=
  ((a.run Session.backend o.context).within
    { state := ⟨o.database, false⟩, scope := o.source .whole }).1

theorem recognized_self (o : Origin) : Recognized (· = o) := by
  rintro _ _ _ _ _ _ _ _ rfl rfl _ _ _
  exact ⟨rfl, rfl, rfl⟩

/-- The tables of one walk hold the same rows if they have the same name. -/
theorem coherent_tables (h : Distinguished (· ∈ a.tables o .whole)) :
    Coherent (· ∈ a.tables o .whole) :=
  coherent_of_distinguished h o.recognized_self fun t ht =>
    ⟨o, rfl, a.asks_of_mem_tables .whole (fun _ hu => hu) t ht⟩

/-- **A walk that has a database for itself comes to the value of its aggregation.** -/
theorem outcome_eq_value (h : Distinguished (· ∈ a.tables o .whole)) :
    o.outcome a = a.value o .whole := by
  have hgives := a.run_gives (Session.serves (coherent_tables h))
    (Session.undisturbed_start o.database (o.source .whole)) (holds_whole rfl) fun _ ht => ht
  exact hgives.result.resolve_right fun ⟨_, _, hfalse⟩ => hfalse

/-- The statements of a histogram are not refused for their size. -/
def Accepts (o : Origin) (key : BucketKey) (children : List (String × Aggregation)) : Prop :=
  if children.isEmpty then
    (Statement.histogram key (o.source .whole)).refusal? = none ∧
      (1 < o.context.targets.length →
        refusedBelow (sourceChecks o.context.types o.condition ++ [.keyed key]) = false)
  else (Statement.create (o.bucketed .whole key).name (.bucketed key (o.source .whole))).refusal? = none

theorem bucketed_total (hdb : o.database.IsKeyed)
    (htargets : ∀ t ∈ o.context.targets, o.database.CanGroup key o.context.types o.condition t)
    (haccepts : (Statement.create (o.bucketed .whole key).name
      (.bucketed key (o.source .whole))).refusal? = none) :
    ∃ rows, (o.bucketed .whole key).rows = .ok rows :=
  Database.fill_bucketed_total (isKeyed_view hdb .whole) htargets haccepts

/-- A histogram has a value if all documents have a bucket key or none, the condition can
be tested, nothing is too large, and the children have values in each bucket. -/
theorem value_total (hdb : o.database.IsKeyed) (hkey : bucketKey o.context field interval = .ok key)
    (htargets : ∀ t ∈ o.context.targets, o.database.CanGroup key o.context.types o.condition t)
    (haccepts : o.Accepts key children)
    (hchildren : ∀ k, (∃ d ∈ o.selected, d.bucket? key = some k) →
      ∃ results, Aggregations.value o children (.bucket .whole key k) = .ok results) :
    ∃ j, (Aggregation.dateHistogram field interval format children).value o .whole = .ok j := by
  rw [Aggregation.value, hkey]
  rw [Accepts] at haccepts
  cases hempty : children.isEmpty with
  | true =>
    rw [hempty, if_pos rfl] at haccepts
    obtain ⟨rows, hrows⟩ := Database.histogram_total (isKeyed_view hdb .whole) htargets
      haccepts.1 haccepts.2
    have hask : o.ask .whole (.histogram key (o.source .whole)) = .ok rows := mapError_eq_ok.mpr hrows
    exact ⟨_, bind_eq_ok.mpr ⟨key, rfl, bind_eq_ok.mpr ⟨_, bind_eq_ok.mpr ⟨rows, hask, rfl⟩, rfl⟩⟩⟩
  | false =>
    rw [hempty, if_neg Bool.false_ne_true] at haccepts
    obtain ⟨rows, hrows⟩ := bucketed_total hdb htargets haccepts
    have heach : ∀ k ∈ bucketKeys rows, ∃ bucket, bucketOf format rows k
        (Aggregations.value o children (.bucket .whole key k)) = .ok bucket := by
      intro k hk
      rw [bucketKeys_eq hdb hrows, mem_distinctKeys, List.mem_filterMap] at hk
      obtain ⟨results, hresults⟩ := hchildren k hk
      exact ⟨_, bind_eq_ok.mpr ⟨results, hresults, rfl⟩⟩
    obtain ⟨buckets, hbuckets⟩ := mapM_total heach
    have hfilled : o.filledBuckets .whole key format
        (fun k => Aggregations.value o children (.bucket .whole key k)) = .ok buckets :=
      bind_eq_ok.mpr ⟨rows, mapError_eq_ok.mpr hrows, hbuckets⟩
    exact ⟨_, bind_eq_ok.mpr ⟨key, rfl, bind_eq_ok.mpr ⟨buckets, hfilled, rfl⟩⟩⟩

end Origin

/-! ### Histograms -/

/-- Identifiers can be counted in every bucket. -/
theorem value_countIds {o : Origin} {p : Place} {key : BucketKey} {rows : List TemporaryRow}
    (hrows : (o.bucketed p key).rows = .ok rows) (k : Int64) :
    ∃ results, Aggregations.value o [("n", .metric .valueCount "_id")] (.bucket p key k) =
      .ok results := by
  have hview := Origin.view_bucket hrows k
  have hsource := o.source_bucket p key rows k
  generalize (o.inBucket p key rows k).name = name at hview hsource
  have hcells : ((Found.ofList ((rowsInBucket k rows).map fun r => (⟨"", r.document⟩ : Candidate))).mapM
      fun c => Metric.valueCount.cellOf "_id" c.document).failure = none :=
    Found.mapM_total rfl fun c _ => ⟨.text c.document.id, rfl⟩
  have hanswer : ∃ answer, (o.view (.bucket p key k)).answer
      (.metric .valueCount "_id" (o.source (.bucket p key k))) = .ok answer := by
    rw [hview, hsource, Database.answer, Database.refusal?_table rfl rfl rfl]
    simp only [Statement.isCommand, Database.read, Database.candidates,
      Database.inTemporary_nil (o.database.temporaryTable?_withOnly name (rowsInBucket k rows)),
      Found.toExcept_total hcells]
    exact ⟨_, rfl⟩
  obtain ⟨answer, hanswer⟩ := hanswer
  rw [Aggregations.value, Aggregations.value, Aggregation.value, Origin.ask, hanswer]
  exact ⟨_, rfl⟩

/-- What the buckets of a histogram say of themselves. -/
def Json.headers (j : Json) : List (Option Json × Option Json × Option Json) :=
  match j.member? "buckets" with
  | some (.arr buckets) => buckets.map Json.header
  | _ => []

/-- The buckets of a result that groups documents are those of their groups. -/
theorem headers_of_groups {c : SearchContext} {field : String} {interval : Interval}
    {key : BucketKey} {format : Option DateFormat} {children : List (String × Aggregation)}
    {docs : List Document} {j : Json} (hkey : bucketKey c field interval = .ok key)
    (hnames : ∀ name ∈ headerNames, name ∉ Members.names children)
    (h : (Aggregation.dateHistogram field interval format children).Groups c docs j) :
    j.headers = (groupsOf key docs).map (·.header format) := by
  rw [Aggregation.Groups] at h
  obtain ⟨key', groups, buckets, hkey', hgroups, rfl, hbuckets⟩ := h
  cases hkey.symm.trans hkey'
  rw [hgroups.unique (isGrouping_groupsOf key docs)] at hbuckets
  have hheaders : List.Forall₂ (fun (g : Group) (bucket : Json) => g.header format = bucket.header)
      (groupsOf key docs) buckets := hbuckets.imp fun g bucket hbucket => (hbucket.1 hnames).symm
  rw [← List.forall₂_map_right_iff, ← List.forall₂_map_left_iff, List.forall₂_eq_eq_eq] at hheaders
  exact hheaders.symm

/-- **A histogram is a group-by on both of its paths.**  Whichever children it has, what it
gives has one bucket for each group of the documents that are selected, in the order of the
keys, and what the buckets say of themselves is what they say without children.  The
histograms below are group-bys in turn.  It does give something if every document of the
tables has a bucket key or none, the condition can be tested, and the children give
something in every bucket. -/
theorem dateHistogram_groups {o : Origin} (hdb : o.database.IsKeyed) {field : String}
    {interval : Interval} {key : BucketKey} (hkey : bucketKey o.context field interval = .ok key)
    (format : Option DateFormat) {children : List (String × Aggregation)}
    (hnames : ∀ name ∈ headerNames, name ∉ Members.names children)
    (hdistinguished : Distinguished
      (· ∈ (Aggregation.dateHistogram field interval format children).tables o .whole)) :
    ∃ groups, IsGrouping key o.selected groups ∧
      (groups.map (·.size)).sum = o.selected.countP (fun d => (d.bucket? key).isSome) ∧
      (∀ j, o.outcome (.dateHistogram field interval format children) = .ok j →
        j.headers = groups.map (·.header format) ∧
        (Aggregation.dateHistogram field interval format children).Groups o.context o.selected j) ∧
      (∀ j, o.outcome (.dateHistogram field interval format []) = .ok j →
        j.headers = groups.map (·.header format)) ∧
      ((∀ t ∈ o.context.targets, o.database.CanGroup key o.context.types o.condition t) →
        o.Accepts key children →
        (∀ k, (∃ d ∈ o.selected, d.bucket? key = some k) →
          ∃ results, Aggregations.value o children (.bucket .whole key k) = .ok results) →
        ∃ j, o.outcome (.dateHistogram field interval format children) = .ok j) := by
  have hvalue := Origin.outcome_eq_value hdistinguished
  -- without children there are no tables
  have hnone : ∀ t, t ∉ (Aggregation.dateHistogram field interval format []).tables o .whole := by
    intro t ht
    rw [Aggregation.tables, hkey] at ht
    cases ht
  have hplain := Origin.outcome_eq_value (o := o)
    (a := .dateHistogram field interval format []) ⟨fun t ht => absurd ht (hnone t),
      fun t _ ht => absurd ht (hnone t)⟩
  refine ⟨groupsOf key o.selected, isGrouping_groupsOf key o.selected,
    (isGrouping_groupsOf key o.selected).sum_sizes, fun j hj => ?_, fun j hj => ?_, ?_⟩
  · rw [hvalue] at hj
    have hgroups := Aggregation.groups_of_value hdb _ (List.Perm.refl _) hj
    exact ⟨headers_of_groups hkey hnames hgroups, hgroups⟩
  · have hfree : ∀ name ∈ headerNames, name ∉ Members.names ([] : List (String × Aggregation)) :=
      fun _ _ h => nomatch h
    rw [hplain] at hj
    exact headers_of_groups hkey hfree (Aggregation.groups_of_value hdb _ (List.Perm.refl _) hj)
  · intro htargets haccepts hchildren
    rw [hvalue]
    exact Origin.value_total hdb hkey htargets haccepts hchildren

/-- A day with two documents, and a document without a date. -/
theorem dateHistogram_groups_one_day :
    let stored (id : String) (members : List (String × Json)) : Document := ⟨"t", id, .obj members⟩
    let docs := [stored "1" [("at", .ofInt 5000)], stored "2" [("at", .ofInt 6000)], stored "3" []]
    let o : Origin :=
      { database := { indices := [("p", docs)] }
        context := ⟨[⟨"p", "sift_idx_p"⟩], [], Mappings.empty.put "p" none "at" .date, "body"⟩
        condition := none }
    let a := Aggregation.dateHistogram "at" .day none [("n", .metric .valueCount "_id")]
    ∃ j, o.outcome a = .ok j ∧ j.headers = [(none, some (.ofInt 0), some (.ofInt 2))] := by
  intro stored docs o a
  let key : BucketKey := ⟨"at", .formatted, .day⟩
  have hkey : bucketKey o.context "at" .day = .ok key := rfl
  have hdb : o.database.IsKeyed := by
    intro e he
    rw [List.mem_singleton.mp he]
    show KeyedRows docs
    rw [KeyedRows]
    decide +kernel
  have htargets : ∀ t ∈ o.context.targets, o.database.CanGroup key o.context.types o.condition t := by
    intro t ht
    rw [List.mem_singleton.mp ht]
    refine ⟨docs, rfl, (fun _ h => nomatch h), fun d hd => ?_⟩
    have hstored : d ∈ docs := by
      rcases hd with hd | ⟨_, -, ⟨-, h⟩ | ⟨_, h, -⟩⟩
      · exact hd
      · cases h
      · cases h
    have hall : ∀ d ∈ docs, (d.bucketKey key).toBool = true := by decide +kernel
    have hcell := hall d hstored
    cases hkey : d.bucketKey key with
    | error e =>
      rw [hkey] at hcell
      cases hcell
    | ok cell => exact ⟨cell, rfl⟩
  have haccepts : o.Accepts key [("n", .metric .valueCount "_id")] := by
    show (Statement.create (o.bucketed .whole key).name (.bucketed key (o.source .whole))).refusal? = none
    rw [← Option.isNone_iff_eq_none]
    decide +kernel
  have hgroupsOf : groupsOf key o.selected = [⟨0, 2⟩] := by decide +kernel
  have hdigests : tableDigest (o.bucketed .whole key).parts ≠
        tableDigest (bucketParts (o.bucketed .whole key).name 0) ∧
      ∀ part ∈ (o.bucketed .whole key).parts ++ bucketParts (o.bucketed .whole key).name 0,
        (Text.utf8 part).length < 2 ^ 64 := by decide +kernel
  obtain ⟨rows, hrows⟩ : ∃ rows, (o.bucketed .whole key).rows = .ok rows :=
    Origin.bucketed_total hdb htargets haccepts
  have hkeys : bucketKeys rows = [0] := by
    rw [Origin.bucketKeys_eq hdb hrows]
    decide +kernel
  -- there are two tables, and their digests differ
  have htables : ∀ t ∈ a.tables o .whole,
      t = o.bucketed .whole key ∨ t = o.inBucket .whole key rows 0 := by
    intro t ht
    rw [Aggregation.tables, hkey] at ht
    simp only [List.isEmpty_cons, Bool.false_eq_true, if_false, hrows, hkeys,
      List.flatMap_cons, List.flatMap_nil, List.append_nil, Aggregations.tables, Aggregation.tables,
      List.mem_cons, List.not_mem_nil, or_false] at ht
    exact ht
  have hdistinguished : Distinguished (· ∈ a.tables o .whole) := by
    refine ⟨fun t ht part hpart => ?_, fun t u ht hu hdigest => ?_⟩
    · rcases htables t ht with rfl | rfl
      · exact hdigests.2 part (List.mem_append_left _ hpart)
      · exact hdigests.2 part (List.mem_append_right _ hpart)
    · rcases htables t ht with rfl | rfl <;> rcases htables u hu with rfl | rfl
      · rfl
      · exact absurd hdigest hdigests.1
      · exact absurd hdigest.symm hdigests.1
      · rfl
  have hnames : ∀ name ∈ headerNames,
      name ∉ Members.names [("n", Aggregation.metric .valueCount "_id")] := by decide
  obtain ⟨groups, hgroups, -, hresult, -, htotal⟩ :=
    dateHistogram_groups hdb hkey none hnames hdistinguished
  obtain ⟨j, hj⟩ := htotal htargets haccepts fun k _ => value_countIds hrows k
  refine ⟨j, hj, (hresult j hj).1.trans ?_⟩
  rw [hgroups.unique (isGrouping_groupsOf key o.selected), hgroupsOf]
  rfl

end DocSearch
