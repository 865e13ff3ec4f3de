import DocSearch.Proofs.Digest
import DocSearch.Proofs.Engine.Alone
import DocSearch.Proofs.Engine.SourceText
import Mathlib.Data.List.Nodup
import Std.Data.String.ToInt

/-!
# Tables of one name hold the same rows

The name of a table of buckets is made of the text of its source and of its key, and the
text of a bucket is the name of its table.  So if no two tables with different parts have
one name, the name of a table determines all the buckets around it, one after the other,
up to the documents that are searched.  Those are determined by the text of the request
and the text of the source.

## Main definitions

* `Distinguished` — no two tables with different parts have one name.
* `Origin.Alike` — two searches are about the same documents.
* `Origin.Reaches`, `Origin.Asks` — the places that a walk comes to, and the tables that it
  asks for.

## Main results

* `Aggregation.asks_of_mem_tables` — what a walk may ask for is asked for at such a place.
* `coherent_of_distinguished` — tables of one name hold the same rows.
-/

namespace DocSearch

open Sql

/-! ### Names -/

/-- Digests tell tables apart: parts fit into what is digested, and different messages have
different digests. -/
structure Distinguished (tables : Table → Prop) : Prop where
  short : ∀ t, tables t → ∀ part ∈ t.parts, IsShort part
  collisionFree : ∀ t u, tables t → tables u → tableDigest t.parts = tableDigest u.parts →
    tableDigestInput t.parts = tableDigestInput u.parts

theorem Distinguished.parts_eq {tables : Table → Prop} (h : Distinguished tables) {t u : Table}
    (ht : tables t) (hu : tables u) (hname : t.name = u.name) : t.parts = u.parts :=
  tableDigestInput_injective (h.short t ht) (h.short u hu)
    (h.collisionFree t u ht hu (tempTableName_inj hname))

theorem Distinguished.mono {tables tables' : Table → Prop} (h : Distinguished tables)
    (hle : ∀ t, tables' t → tables t) : Distinguished tables' :=
  ⟨fun t ht => h.short t (hle t ht), fun t u ht hu => h.collisionFree t u (hle t ht) (hle u hu)⟩

/-- Tables of a list are told apart if no digest occurs twice. -/
theorem Distinguished.of_nodup {tables : List Table}
    (hshort : ∀ t ∈ tables, ∀ part ∈ t.parts, IsShort part)
    (hnodup : (tables.map fun t => tableDigest t.parts).Nodup) : Distinguished (· ∈ tables) := by
  refine ⟨hshort, fun t u ht hu hdigest => ?_⟩
  rw [List.inj_on_of_nodup_map hnodup ht hu hdigest]

theorem Interval.unit_injective {i j : Interval} (h : i.unit = j.unit) : i = j := by
  have hnames := congrArg Interval.ofName? h
  rw [Interval.ofName?_unit, Interval.ofName?_unit] at hnames
  exact Option.some.inj hnames

/-! ### Places that a walk comes to -/

/-- Two searches are about the same documents. -/
structure Origin.Alike (o o' : Origin) : Prop where
  indices : o.database.indices = o'.database.indices
  context : o.context = o'.context
  condition : o.condition = o'.condition

namespace Origin

/-- A place that a walk may come to, its tables being among those that are asked for. -/
inductive Reaches (o : Origin) (tables : Table → Prop) : Place → Prop where
  /-- All documents that are searched. -/
  | whole : Reaches o tables .whole
  /-- A bucket of a histogram whose tables are asked for. -/
  | bucket {p : Place} {field : String} {interval : Interval} {key : BucketKey}
    {rows : List TemporaryRow} {k : Int64} (hp : Reaches o tables p)
    (hkey : bucketKey o.context field interval = .ok key) (hbucketed : tables (o.bucketed p key))
    (hrows : (o.bucketed p key).rows = .ok rows) (hbucket : tables (o.inBucket p key rows k)) :
    Reaches o tables (.bucket p key k)

/-- A table that is asked for at such a place. -/
inductive Asks (o : Origin) (tables : Table → Prop) : Table → Prop where
  /-- The table of the rows of a place with their buckets. -/
  | bucketed {p : Place} {field : String} {interval : Interval} {key : BucketKey}
    (hp : Reaches o tables p) (hkey : bucketKey o.context field interval = .ok key) :
    Asks o tables (o.bucketed p key)
  /-- The table of one bucket. -/
  | inBucket {p : Place} {field : String} {interval : Interval} {key : BucketKey}
    {rows : List TemporaryRow} (k : Int64) (hp : Reaches o tables p)
    (hkey : bucketKey o.context field interval = .ok key) (hbucketed : tables (o.bucketed p key))
    (hrows : (o.bucketed p key).rows = .ok rows) : Asks o tables (o.inBucket p key rows k)

end Origin

mutual

/-- **What the walk of an aggregation may ask for is asked for at a place that it comes
to.** -/
theorem Aggregation.asks_of_mem_tables {o : Origin} {tables : Table → Prop} :
    ∀ (a : Aggregation) {p : Place}, o.Reaches tables p → (∀ t ∈ a.tables o p, tables t) →
      ∀ t ∈ a.tables o p, o.Asks tables t
  | .metric m field, p, _, _, t, ht => by
    rw [Aggregation.tables] at ht
    cases ht
  | .dateHistogram field interval format children, p, hp, htables, t, ht => by
    rw [Aggregation.tables] at htables ht
    cases hkey : bucketKey o.context field interval with
    | error e =>
      rw [hkey] at ht
      cases ht
    | ok key =>
      rw [hkey] at htables ht
      cases hempty : children.isEmpty with
      | true =>
        simp only [hempty, if_true] at ht
        cases ht
      | false =>
        simp only [hempty, Bool.false_eq_true, if_false, List.forall_mem_cons] at htables ht
        obtain ⟨hbucketed, hbuckets⟩ := htables
        -- the table of the buckets, or one of a bucket, or one that its children ask for
        rcases List.mem_cons.mp ht with rfl | ht
        · exact .bucketed hp hkey
        · cases hrows : (o.bucketed p key).rows with
          | error e =>
            rw [hrows] at ht
            cases ht
          | ok rows =>
            rw [hrows] at hbuckets ht
            obtain ⟨k, hk, ht⟩ := List.mem_flatMap.mp ht
            have hhere : ∀ u ∈ o.inBucket p key rows k ::
                Aggregations.tables o children (.bucket p key k), tables u :=
              fun u hu => hbuckets u (List.mem_flatMap.mpr ⟨k, hk, hu⟩)
            rw [List.forall_mem_cons] at hhere
            rcases List.mem_cons.mp ht with rfl | ht
            · exact .inBucket k hp hkey hbucketed hrows
            · exact Aggregations.asks_of_mem_tables children
                (.bucket hp hkey hbucketed hrows hhere.1) hhere.2 t ht

theorem Aggregations.asks_of_mem_tables {o : Origin} {tables : Table → Prop} :
    ∀ (siblings : List (String × Aggregation)) {p : Place}, o.Reaches tables p →
      (∀ t ∈ Aggregations.tables o siblings p, tables t) →
      ∀ t ∈ Aggregations.tables o siblings p, o.Asks tables t
  | [], p, _, _, t, ht => by
    rw [Aggregations.tables] at ht
    cases ht
  | (name, a) :: rest, p, hp, htables, t, ht => by
    rw [Aggregations.tables] at htables ht
    rw [List.forall_mem_append] at htables
    rcases List.mem_append.mp ht with ht | ht
    · exact Aggregation.asks_of_mem_tables a hp htables.1 t ht
    · exact Aggregations.asks_of_mem_tables rest hp htables.2 t ht

end

/-! ### Parts -/

theorem field_of_bucketKey {c : SearchContext} {field : String} {interval : Interval}
    {key : BucketKey} (h : bucketKey c field interval = .ok key) :
    key.field = field ∧ key.interval = interval := by
  rw [bucketKey] at h
  split at h
  · cases h
  · split at h
    · cases h
    · cases h
      exact ⟨rfl, rfl⟩

/-- The key of a histogram is determined by its field and its interval. -/
theorem bucketKey_eq {c : SearchContext} {field field' : String} {interval interval' : Interval}
    {key key' : BucketKey} (h : bucketKey c field interval = .ok key)
    (h' : bucketKey c field' interval' = .ok key') (hfield : key.field = key'.field)
    (hinterval : key.interval = key'.interval) : key = key' := by
  obtain ⟨rfl, rfl⟩ := field_of_bucketKey h
  obtain ⟨rfl, rfl⟩ := field_of_bucketKey h'
  rw [hfield, hinterval, h'] at h
  exact (Except.ok.inj h).symm

/-- Places of searches that are about the same documents are the same if they are read
from the same source and hold the same rows. -/
structure SamePlace (o o' : Origin) (p p' : Place) : Prop where
  alike : o.Alike o'
  source : o.source p = o'.source p'
  view : o.view p = o'.view p'

/-- Whatever is put into buckets by the same key at the same place is the same. -/
theorem SamePlace.rows_eq {o o' : Origin} {p p' : Place} (h : SamePlace o o' p p')
    (key : BucketKey) : o.bucketed p key = o'.bucketed p' key := by
  rw [Origin.bucketed, Origin.bucketed, h.source, h.view, h.alike.context]

theorem SamePlace.whole {o o' : Origin} (h : o.Alike o') : SamePlace o o' .whole .whole := by
  refine ⟨h, ?_, ?_⟩
  · rw [Origin.source, Origin.source, h.context, h.condition]
  · rw [Origin.view, Origin.view]
    cases hdb : o.database
    cases hdb' : o'.database
    have hindices := h.indices
    rw [hdb, hdb'] at hindices
    rw [hindices]

theorem SamePlace.bucket {o o' : Origin} {p p' : Place} (h : SamePlace o o' p p')
    (key : BucketKey) (k : Int64) : SamePlace o o' (.bucket p key k) (.bucket p' key k) := by
  refine ⟨h.alike, ?_, ?_⟩
  · rw [Origin.source, Origin.source, h.source, h.alike.context]
  · rw [Origin.view, Origin.view, h.source, h.view, h.alike.context]
    simp only [Database.withOnly, h.alike.indices]

/-! ### Names determine places -/

/-- The documents that a search is about are told by the parts of the tables that it asks
for first. -/
def Recognized (origins : Origin → Prop) : Prop :=
  ∀ {o o' : Origin} {field field' : String} {interval interval' : Interval} {key key' : BucketKey},
    origins o → origins o' → bucketKey o.context field interval = .ok key →
    bucketKey o'.context field' interval' = .ok key' →
    bucketedParts o.context (o.source .whole) key = bucketedParts o'.context (o'.source .whole) key' →
    o.Alike o'

/-- What the parts of two tables of buckets have in common if they are the same. -/
theorem bucketedParts_inj {c c' : SearchContext} {scope scope' : Source} {key key' : BucketKey}
    (h : bucketedParts c scope key = bucketedParts c' scope' key') :
    (scope.render .sqlite).sql = (scope'.render .sqlite).sql ∧ key.field = key'.field ∧
      key.interval = key'.interval := by
  simp only [bucketedParts, List.cons.injEq, and_true] at h
  obtain ⟨-, hsql, -, hfield, hunit⟩ := h
  exact ⟨hsql, hfield, Interval.unit_injective hunit⟩

theorem bucketParts_inj {name name' : String} {k k' : Int64}
    (h : bucketParts name k = bucketParts name' k') : name = name' ∧ k = k' := by
  simp only [bucketParts, List.cons.injEq, and_true] at h
  exact ⟨h.1, Int64.toInt_inj.mp (Int.repr_inj.mp h.2)⟩

theorem bucketedParts_ne_bucketParts (c : SearchContext) (scope : Source) (key : BucketKey)
    (name : String) (k : Int64) : bucketedParts c scope key ≠ bucketParts name k := by
  intro h
  have hlength := congrArg List.length h
  simp [bucketedParts, bucketParts] at hlength

/-- The text of the documents of indices is no name. -/
theorem documents_sql_ne {d : Dialect} (targets : List Target) (types : List String)
    (filter : Option Condition) (name : String) :
    ((Source.documents targets types filter).render d).sql ≠
      ((Source.table name).render d).sql := by
  intro h
  have hdocuments : ((Source.documents targets types filter).render d).sql.toList.head? =
      some '(' := by
    show (documentsFragment targets types _).sql.toList.head? = _
    rw [documentsFragment]
    split
    · rfl
    · simp [Fragment.raw]
  have htable : ((Source.table name).render d).sql.toList.head? = some '"' := by
    show (quoteIdent name).toList.head? = _
    simp [quoteIdent, enquote]
  rw [h, htable] at hdocuments
  exact absurd (Option.some.inj hdocuments) (by decide)

section Coherence

variable {tables : Table → Prop} {origins : Origin → Prop} {o o' : Origin} {p p' : Place}

/-- **Tables of buckets with the same parts are made of the same place**: if the places are
buckets, then tables of one name hold them, which were made of the same bucket of the same
place in turn. -/
theorem samePlace_of_parts_eq (hdistinguished : Distinguished tables)
    (hrecognized : Recognized origins) (ho : origins o) (ho' : origins o')
    (hp : o.Reaches tables p) (hp' : o'.Reaches tables p') {field field' : String}
    {interval interval' : Interval} {key key' : BucketKey}
    (hkey : bucketKey o.context field interval = .ok key)
    (hkey' : bucketKey o'.context field' interval' = .ok key')
    (hparts : bucketedParts o.context (o.source p) key =
      bucketedParts o'.context (o'.source p') key') : SamePlace o o' p p' ∧ key = key' := by
  have hplace : SamePlace o o' p p' := by
    induction hp generalizing p' field field' interval interval' key key' with
    | whole =>
      cases hp' with
      | whole => exact .whole (hrecognized ho ho' hkey hkey' hparts)
      | bucket => exact absurd (bucketedParts_inj hparts).1 (documents_sql_ne _ _ _ _)
    | @bucket q _ _ outer rows k hq houter hbucketed hrows hbucket ih =>
      cases hp' with
      | whole => exact absurd (bucketedParts_inj hparts).1.symm (documents_sql_ne _ _ _ _)
      | @bucket q' _ _ outer' rows' k' hq' houter' hbucketed' hrows' hbucket' =>
        -- the texts are the names of the tables of the buckets
        have hname : (o.inBucket q outer rows k).name = (o'.inBucket q' outer' rows' k').name :=
          quoteIdent_injective (bucketedParts_inj hparts).1
        obtain ⟨hnames, rfl⟩ := bucketParts_inj (hdistinguished.parts_eq hbucket hbucket' hname)
        have hparts := hdistinguished.parts_eq hbucketed hbucketed' hnames
        have hsame := ih hq' houter houter' hparts
        obtain ⟨-, hfield, hinterval⟩ := bucketedParts_inj hparts
        rw [← hsame.alike.context] at houter'
        rw [bucketKey_eq houter houter' hfield hinterval]
        exact hsame.bucket outer' k
  obtain ⟨-, hfield, hinterval⟩ := bucketedParts_inj hparts
  rw [← hplace.alike.context] at hkey'
  exact ⟨hplace, bucketKey_eq hkey hkey' hfield hinterval⟩

/-- **Tables of one name hold the same rows**, if digests tell tables apart and the
documents of the searches can be recognized. -/
theorem coherent_of_distinguished (hdistinguished : Distinguished tables)
    (hrecognized : Recognized origins)
    (hasked : ∀ t, tables t → ∃ o, origins o ∧ o.Asks tables t) : Coherent tables := by
  intro t u ht hu hname
  have hparts := hdistinguished.parts_eq ht hu hname
  obtain ⟨o, ho, hasks⟩ := hasked t ht
  obtain ⟨o', ho', hasks'⟩ := hasked u hu
  -- a table of buckets and the table of a bucket differ in how many parts their names have
  cases hasks with
  | bucketed hp hkey =>
    cases hasks' with
    | bucketed hp' hkey' =>
      obtain ⟨hplace, rfl⟩ :=
        samePlace_of_parts_eq hdistinguished hrecognized ho ho' hp hp' hkey hkey' hparts
      rw [hplace.rows_eq]
    | inBucket => exact absurd hparts (bucketedParts_ne_bucketParts _ _ _ _ _)
  | inBucket k hp hkey hbucketed hrows =>
    cases hasks' with
    | bucketed => exact absurd hparts.symm (bucketedParts_ne_bucketParts _ _ _ _ _)
    | inBucket k' hp' hkey' hbucketed' hrows' =>
      obtain ⟨hnames, rfl⟩ := bucketParts_inj hparts
      obtain ⟨hplace, rfl⟩ := samePlace_of_parts_eq hdistinguished hrecognized ho ho' hp hp' hkey
        hkey' (hdistinguished.parts_eq hbucketed hbucketed' hnames)
      rw [hplace.rows_eq, hrows'] at hrows
      rw [Except.ok.inj hrows]
      rfl

end Coherence

end DocSearch
