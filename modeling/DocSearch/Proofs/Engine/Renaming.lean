import DocSearch.Proofs.Engine.Serving
import DocSearch.Proofs.Steps

/-!
# The names of tables do not matter

The text of a request is a part of the names of its temporary tables, so two requests that
ask for the same in different texts fill different tables.  A statement over a temporary
table depends on its rows only, and neither its name nor the other tables are seen in the
rows that are put into the next one.  So the value of an aggregation is the same for both.

## Main definitions

* `Origin.Akin` — two walks are about the same, whatever their requests are called.

## Main results

* `Origin.Akin.rows_bucketed` — the tables at a place hold the same rows.
* `Aggregation.value_akin` — a value that one walk comes to is the value for the other.
-/

namespace DocSearch

open Steps

/-! ### Statements over a table -/

namespace Database

variable {db db' : Database} {name name' : String} {rows : List TemporaryRow}

theorem candidates_rename (h : db.temporaryTable? name = some rows)
    (h' : db'.temporaryTable? name' = some rows) (goal : Goal) (fields : List String)
    (extra : List Check) :
    db.candidates goal fields extra (.table name) =
      db'.candidates goal fields extra (.table name') := by
  rw [Database.candidates, Database.candidates, inTemporary, inTemporary, h, h']

theorem answer_metric_rename (h : db.temporaryTable? name = some rows)
    (h' : db'.temporaryTable? name' = some rows) (m : Metric) (field : String) :
    db.answer (.metric m field (.table name)) = db'.answer (.metric m field (.table name')) := by
  rw [answer, answer, refusal?_table rfl rfl rfl, refusal?_table rfl rfl rfl]
  simp only [Statement.isCommand, read, candidates_rename h h']
  rfl

theorem answer_histogram_rename (h : db.temporaryTable? name = some rows)
    (h' : db'.temporaryTable? name' = some rows) (key : BucketKey) :
    db.answer (.histogram key (.table name)) = db'.answer (.histogram key (.table name')) := by
  have haccepted : ∀ table, (Statement.histogram key (.table table)).refusal? = none :=
    fun _ => rfl
  rw [answer, answer, haccepted, haccepted]
  simp only [Statement.isCommand, read, candidates_rename h h']
  rfl

theorem fill_bucketed_rename (h : db.temporaryTable? name = some rows)
    (h' : db'.temporaryTable? name' = some rows) (table table' : String) (key : BucketKey) :
    db.fill table (.bucketed key (.table name)) =
      db'.fill table' (.bucketed key (.table name')) := by
  rw [fill, fill, refusal?_table rfl rfl rfl, refusal?_table rfl rfl rfl]
  simp only [select, inTemporary_nil h, inTemporary_nil h']

/-- Whether a statement that fills a table is refused does not depend on its name. -/
theorem isSome_refusal?_rename (table table' : String) (key : BucketKey) (source : Source) :
    (Statement.create table (.bucketed key source)).refusal?.isSome =
      (Statement.create table' (.bucketed key source)).refusal?.isSome := by
  -- the name is seen in the text of one of the refusals only
  have hrefusal : ∀ name, (Statement.create name (.bucketed key source)).refusal? =
      if maxTables < source.tables then some .tooManyTables
      else if (Extent.chained source.extents).excess.any (· ≤ maxValues) then some .tooDeep
      else if maxValues < (Extent.chained source.extents).values then
        some (tooManyValues ((Statement.create name (.bucketed key source)).render .sqlite).sql)
      else if maxOrderTerms < 0 then some .tooManyOrderTerms
      else if maxNesting < (Extent.chained (source.extents ++ [])).depth then some .tooDeep
      else none := fun _ => rfl
  simp only [hrefusal, apply_ite Option.isSome, Option.isSome_some]

/-- So the rows that fill a table do not depend on its name. -/
theorem toOption_fill_rename (db : Database) (table table' : String) (key : BucketKey)
    (source : Source) : (db.fill table (.bucketed key source)).toOption =
      (db.fill table' (.bucketed key source)).toOption := by
  have hrefused := isSome_refusal?_rename table table' key source
  rw [fill, fill]
  cases hleft : (Statement.create table (.bucketed key source)).refusal? with
  | none =>
    rw [hleft, Option.isSome_none] at hrefused
    rw [eq_comm, Option.isSome_eq_false_iff, Option.isNone_iff_eq_none] at hrefused
    rw [hrefused]
  | some e =>
    rw [hleft] at hrefused
    obtain ⟨e', he'⟩ := Option.isSome_iff_exists.mp hrefused.symm
    rw [he']
    rfl

end Database

/-! ### Walks that are about the same -/

/-- Two walks are about the same documents, whatever the texts of their requests are and
whatever temporary tables there are. -/
structure Origin.Akin (o o' : Origin) : Prop where
  /-- The databases have the same documents. -/
  indices : o.database.indices = o'.database.indices
  /-- The searches are about the same, but for the text of the request. -/
  context : o'.context = { o.context with source := o'.context.source }
  /-- The documents have to meet the same. -/
  condition : o.condition = o'.condition

namespace Origin

/-- A place is read alike by two walks: from the same documents, or from two tables that
hold the same rows. -/
inductive ReadAlike (o o' : Origin) (p : Place) : Prop where
  /-- The documents of the indices. -/
  | documents (hsource : o.source p = o'.source p) (hview : o.view p = o'.view p)
  /-- Two tables with the same rows. -/
  | table {name name' : String} {rows : List TemporaryRow}
    (hsource : o.source p = .table name) (hsource' : o'.source p = .table name')
    (hrows : (o.view p).temporaryTable? name = some rows)
    (hrows' : (o'.view p).temporaryTable? name' = some rows)

variable {o o' : Origin} {p : Place}

theorem ReadAlike.toOption_bucketed (h : ReadAlike o o' p) (key : BucketKey) :
    (o.bucketed p key).rows.toOption = (o'.bucketed p key).rows.toOption := by
  rw [bucketed, bucketed]
  cases h with
  | documents hsource hview =>
    simp only [hsource, hview]
    exact Database.toOption_fill_rename _ _ _ key _
  | table hsource hsource' hrows hrows' =>
    simp only [hsource, hsource']
    rw [Database.fill_bucketed_rename hrows hrows' _ (bucketedTableName .sqlite o'.context _ key)]

theorem ReadAlike.ask_metric (h : ReadAlike o o' p) (m : Metric) (field : String) :
    o.ask p (.metric m field (o.source p)) = o'.ask p (.metric m field (o'.source p)) := by
  rw [ask, ask]
  cases h with
  | documents hsource hview => rw [hsource, hview]
  | table hsource hsource' hrows hrows' =>
    rw [hsource, hsource', Database.answer_metric_rename hrows hrows']

theorem ReadAlike.groupedBuckets_eq (h : ReadAlike o o' p) (key : BucketKey)
    (format : Option DateFormat) :
    o.groupedBuckets p key format = o'.groupedBuckets p key format := by
  have hask : o.ask p (.histogram key (o.source p)) = o'.ask p (.histogram key (o'.source p)) := by
    rw [ask, ask]
    cases h with
    | documents hsource hview => rw [hsource, hview]
    | table hsource hsource' hrows hrows' =>
      rw [hsource, hsource', Database.answer_histogram_rename hrows hrows']
  rw [groupedBuckets, groupedBuckets, hask]

/-- A bucket is read from a table with the rows of the bucket. -/
theorem exists_view_bucket (o : Origin) (p : Place) (key : BucketKey) (k : Int64) :
    ∃ name, o.source (.bucket p key k) = .table name ∧
      (o.view (.bucket p key k)).temporaryTable? name =
        some (rowsInBucket k ((o.bucketed p key).rows.toOption.getD [])) := by
  refine ⟨_, rfl, ?_⟩
  simp only [view, bucketed, Database.temporaryTable?_withOnly]

/-- **Every place is read alike**, by walks that are about the same. -/
theorem Akin.readAlike (h : o.Akin o') (p : Place) : ReadAlike o o' p := by
  induction p with
  | whole =>
    refine .documents ?_ ?_
    · rw [source, source, h.context, h.condition]
    · rw [view, view, h.indices]
  | bucket p key k ih =>
    -- the rows of the bucket come from tables that hold the same
    obtain ⟨name, hsource, hrows⟩ := o.exists_view_bucket p key k
    obtain ⟨name', hsource', hrows'⟩ := o'.exists_view_bucket p key k
    rw [ih.toOption_bucketed key] at hrows
    exact .table hsource hsource' hrows hrows'

/-- The tables of the buckets at a place hold the same rows. -/
theorem Akin.rows_bucketed (h : o.Akin o') {key : BucketKey} {rows : List TemporaryRow}
    (hrows : (o.bucketed p key).rows = .ok rows) : (o'.bucketed p key).rows = .ok rows := by
  have hsame := (h.readAlike p).toOption_bucketed key
  rw [hrows] at hsame
  cases hrows' : (o'.bucketed p key).rows with
  | error e =>
    rw [hrows'] at hsame
    cases hsame
  | ok rows' =>
    rw [hrows'] at hsame
    exact congrArg Except.ok (Option.some.inj hsame).symm

theorem Akin.bucketKey_eq (h : o.Akin o') (field : String) (interval : Interval) :
    bucketKey o'.context field interval = bucketKey o.context field interval := by
  rw [h.context]
  rfl

end Origin

section Values

variable {o o' : Origin}

mutual

/-- **The value of an aggregation does not depend on the names of tables.** -/
theorem Aggregation.value_akin (h : o.Akin o') : ∀ {a : Aggregation} {p : Place} {j : Json},
    a.value o p = .ok j → a.value o' p = .ok j
  | .metric m field, p, j, hvalue => by
    rw [Aggregation.value, (h.readAlike p).ask_metric] at hvalue
    rw [Aggregation.value]
    exact hvalue
  | .dateHistogram field interval format children, p, j, hvalue => by
    rw [Aggregation.value] at hvalue
    obtain ⟨key, hkey, hvalue⟩ := bind_eq_ok.mp hvalue
    rw [Aggregation.value]
    refine bind_eq_ok.mpr ⟨key, (h.bucketKey_eq field interval).trans hkey, ?_⟩
    cases hempty : children.isEmpty with
    | true =>
      rw [hempty] at hvalue
      obtain ⟨buckets, hbuckets, hvalue⟩ := bind_eq_ok.mp hvalue
      rw [(h.readAlike p).groupedBuckets_eq] at hbuckets
      exact bind_eq_ok.mpr ⟨buckets, hbuckets, hvalue⟩
    | false =>
      rw [hempty] at hvalue
      obtain ⟨buckets, hbuckets, hvalue⟩ := bind_eq_ok.mp hvalue
      obtain ⟨rows, hrows, hbuckets⟩ := bind_eq_ok.mp hbuckets
      -- a table of buckets is filled with the same rows under either name
      have hrows' := h.rows_bucketed (mapError_eq_ok.mp hrows)
      refine bind_eq_ok.mpr ⟨buckets, bind_eq_ok.mpr ⟨rows, mapError_eq_ok.mpr hrows', ?_⟩, hvalue⟩
      refine mapM_ok_mono (fun k _ bucket hbucket => ?_) hbuckets
      obtain ⟨results, hresults, hbucket⟩ := bind_eq_ok.mp hbucket
      exact bind_eq_ok.mpr ⟨results, Aggregations.value_akin h hresults, hbucket⟩

theorem Aggregations.value_akin (h : o.Akin o') :
    ∀ {siblings : List (String × Aggregation)} {p : Place} {results : List (String × Json)},
      Aggregations.value o siblings p = .ok results → Aggregations.value o' siblings p = .ok results
  | [], p, results, hvalue => by
    rw [Aggregations.value] at hvalue ⊢
    exact hvalue
  | (name, a) :: rest, p, results, hvalue => by
    rw [Aggregations.value] at hvalue
    obtain ⟨result, hresult, hvalue⟩ := bind_eq_ok.mp hvalue
    obtain ⟨others, hothers, hvalue⟩ := bind_eq_ok.mp hvalue
    rw [Aggregations.value]
    exact bind_eq_ok.mpr ⟨result, Aggregation.value_akin h hresult,
      bind_eq_ok.mpr ⟨others, Aggregations.value_akin h hothers, hvalue⟩⟩

end

end Values

end DocSearch
