import DocSearch.Proofs.Aggregation.Distinct
import DocSearch.Proofs.Aggregation.RoundTrip
import DocSearch.Proofs.Engine.Script
import Mathlib

/-!
# Results have the shape of the request

The results of siblings stand under their names, in the order of the request.  A metric
gives one value, a histogram a list of buckets, and a bucket is an object that says what
it is and then gives the results of the children.

Names are chosen by whoever asks, and the results of the children are written into the
object of the bucket.  So a child that is called like one of the bucket's own members
takes its place: the bucket then no longer says its key, its size or the text of its key.
Nothing else is ever overwritten.

## Main definitions

* `BucketHolds` — the members of a bucket, given the results of its children.
* `Aggregation.Mirrors`, `Aggregations.Mirror` — results have the shape of the request.

## Main results

* `Aggregations.mirror_of_run` — what a walk gives has the shape of its siblings.
* `results_mirror_request` — what a walk gives has the shape of the request.
* `bucket_loses_its_key` — a child called `key` takes the place of the key.
-/

namespace DocSearch

open Members

/-! ### Buckets -/

/-- The names that a bucket has for what it says of itself. -/
def ownNames (format : Option DateFormat) : List String :=
  (format.map fun _ => "key_as_string").toList ++ ["key", "doc_count"]

/-- The members of a bucket with a key and a count, given the results of its children. -/
structure BucketHolds (format : Option DateFormat) (key count : Int64)
    (results members : List (String × Json)) : Prop where
  /-- Its own names come first, then those of the children in their order. -/
  names_eq : names members =
    ownNames format ++ (names results).filter fun name => decide (name ∉ ownNames format)
  /-- Every child has its result under its name. -/
  child : ∀ r ∈ results, members.lookup r.1 = some r.2
  /-- The key is there, unless a child is called so. -/
  key_eq : "key" ∉ names results → members.lookup "key" = some (.ofInt key.toInt)
  /-- The count is there, unless a child is called so. -/
  count_eq : "doc_count" ∉ names results → members.lookup "doc_count" = some (.ofInt count.toInt)
  /-- The text of the key is there if and only if there is a format for it, unless a
  child is called so. -/
  text_eq : "key_as_string" ∉ names results →
    members.lookup "key_as_string" = format.map fun f => .str (f.format key.toInt)

theorem names_bucketMembers (format : Option DateFormat) (key count : Int64) :
    names (bucketMembers format key count) = ownNames format := by
  cases format <;> rfl

/-- **What a bucket holds**, whatever its children are called. -/
theorem bucketHolds_putAll (format : Option DateFormat) (key count : Int64)
    {results : List (String × Json)} (h : (names results).Nodup) :
    BucketHolds format key count results
      (putAll (bucketMembers format key count) results) where
  names_eq := by rw [names_putAll h, names_bucketMembers]
  child := fun _ hr => lookup_putAll_of_mem h hr _
  key_eq := by
    intro hname
    rw [lookup_putAll hname]
    cases format <;> rfl
  count_eq := by
    intro hname
    rw [lookup_putAll hname]
    cases format <;> rfl
  text_eq := by
    intro hname
    rw [lookup_putAll hname]
    cases format <;> rfl

/-! ### Shapes -/

variable {σ : Type}

/-- Something that an aggregation gives over a source. -/
def Aggregation.ComesTo (b : Backend σ) (c : SearchContext) (scope : Source) (a : Aggregation)
    (result : Json) : Prop :=
  ∃ w after : World σ, w.scope = scope ∧ (a.run b c).within w = (.ok result, after)

mutual

/-- A result has the shape of an aggregation: a metric has one value, and a histogram has
buckets.  Each bucket holds the results of the children over a table of its own. -/
def Aggregation.Mirrors (b : Backend σ) (c : SearchContext) : Aggregation → Json → Prop
  | .metric _ _, result => ∃ value, result = .obj [("value", value)]
  | .dateHistogram _ _ format children, result =>
    ∃ buckets, result = .obj [("buckets", .arr buckets)] ∧
      ∀ bucket ∈ buckets, ∃ key count bucketed results members, bucket = .obj members ∧
        BucketHolds format key count results members ∧
        Aggregations.Mirror b c (.table (bucketTableName bucketed key)) children results

/-- Results have the shape of siblings over a source: each sibling has its result under its
name and at its place, and that is what the sibling gives over the source. -/
def Aggregations.Mirror (b : Backend σ) (c : SearchContext) (scope : Source) :
    List (String × Aggregation) → List (String × Json) → Prop
  | [], results => results = []
  | (name, a) :: rest, results =>
    ∃ result others, results = (name, result) :: others ∧ a.ComesTo b c scope result ∧
      a.Mirrors b c result ∧ Aggregations.Mirror b c scope rest others

end

section Walks

variable {b : Backend σ} {c : SearchContext}

theorem Aggregations.Mirror.names_eq {scope : Source} {siblings : Aggregations}
    {results : List (String × Json)} (h : Aggregations.Mirror b c scope siblings results) :
    names results = names siblings := by
  induction siblings generalizing results with
  | nil =>
    rw [Aggregations.Mirror] at h
    rw [h]
    rfl
  | cons s rest ih =>
    obtain ⟨name, a⟩ := s
    rw [Aggregations.Mirror] at h
    obtain ⟨result, others, rfl, -, -, hothers⟩ := h
    have hnames : names others = names rest := ih hothers
    exact congrArg (name :: ·) hnames

/-! ### Walks -/

/-- A walk reads from the same source afterwards. -/
theorem Aggregation.scope_run (a : Aggregation) (w : World σ) :
    ((a.run b c).within w).2.scope = w.scope := by
  have htrivial : WalkInvariant b fun _ => True :=
    ⟨fun _ _ => trivial, fun _ _ _ => trivial, fun _ _ => trivial, fun _ _ => trivial⟩
  exact (Aggregation.run_keeps htrivial a w).1

theorem runMetric_mirrors {m : Metric} {field : String} {w after : World σ} {result : Json}
    (h : (runMetric b m field).within w = (.ok result, after)) :
    ∃ value, result = .obj [("value", value)] := by
  rw [runMetric, Run.within_bind_eq_ok] at h
  obtain ⟨scope, _, -, h⟩ := h
  rw [Run.within_bind_eq_ok] at h
  obtain ⟨rows, _, -, h⟩ := h
  cases h
  exact ⟨_, rfl⟩

/-- The buckets of a histogram without children hold what they say of themselves. -/
theorem groupedBuckets_hold {key : BucketKey} {format : Option DateFormat} {w after : World σ}
    {buckets : List Json} (h : (groupedBuckets b key format).within w = (.ok buckets, after)) :
    ∀ bucket ∈ buckets, ∃ k count members, bucket = .obj members ∧
      BucketHolds format k count [] members := by
  rw [groupedBuckets, Run.within_bind_eq_ok] at h
  obtain ⟨scope, _, -, h⟩ := h
  rw [Run.within_bind_eq_ok] at h
  obtain ⟨rows, _, -, h⟩ := h
  cases h
  intro bucket hbucket
  obtain ⟨row, -, hrow⟩ := List.mem_filterMap.mp hbucket
  simp only [groupedBucket?, Option.bind_eq_bind, Option.bind_eq_some_iff] at hrow
  obtain ⟨_, -, k, -, _, -, count, -, hrow⟩ := hrow
  cases hrow
  exact ⟨k, count, _, rfl, bucketHolds_putAll format k count List.nodup_nil⟩

/-- The buckets of a histogram with children hold what the children give over their tables. -/
theorem materializedBuckets_hold {key : BucketKey} {format : Option DateFormat}
    {children : Run σ ExecutionError (List (String × Json))} {w after : World σ}
    {buckets : List Json} {P : Source → List (String × Json) → Prop}
    (hchildren : ∀ {w after : World σ} {results}, children.within w = (.ok results, after) →
      P w.scope results ∧ (names results).Nodup)
    (h : (materializedBuckets b c key format children).within w = (.ok buckets, after)) :
    ∀ bucket ∈ buckets, ∃ k count bucketed results members, bucket = .obj members ∧
      BucketHolds format k count results members ∧
      P (.table (bucketTableName bucketed k)) results := by
  rw [materializedBuckets, Run.within_bind_eq_ok] at h
  obtain ⟨scope, _, -, h⟩ := h
  rw [Run.within_bind_eq_ok] at h
  obtain ⟨_, _, -, h⟩ := h
  rw [Run.within_bind_eq_ok] at h
  obtain ⟨rows, _, -, h⟩ := h
  intro bucket hbucket
  -- a bucket comes from one of the keys
  obtain ⟨k, -, before, behind, hrun⟩ := Run.exists_of_mem_mapM h hbucket
  rw [runBucket, Run.within_bind_eq_ok] at hrun
  obtain ⟨_, _, -, hrun⟩ := hrun
  rw [Run.within_bind_eq_ok] at hrun
  obtain ⟨_, _, -, hrun⟩ := hrun
  rw [Run.within_bind_eq_ok] at hrun
  obtain ⟨counted, entered, -, hrun⟩ := hrun
  rw [Run.within_bind_eq_ok] at hrun
  obtain ⟨results, _, hscoped, hrun⟩ := hrun
  cases hrun
  obtain ⟨_, hresults⟩ := Run.exists_of_withScope hscoped
  obtain ⟨hP, hnodup⟩ := hchildren hresults
  exact ⟨k, _, _, results, _, rfl, bucketHolds_putAll format k _ hnodup, hP⟩

mutual

theorem Aggregation.mirrors_of_run : ∀ {a : Aggregation} {w after : World σ} {result : Json},
    a.Distinct → (a.run b c).within w = (.ok result, after) → a.Mirrors b c result
  | .metric m field, w, after, result, _, h => by
    rw [Aggregation.run, Run.within_bind_eq_ok] at h
    obtain ⟨_, _, -, h⟩ := h
    rw [Aggregation.Mirrors]
    exact runMetric_mirrors h
  | .dateHistogram field interval format children, w, after, result, hdistinct, h => by
    rw [Aggregation.Distinct] at hdistinct
    rw [Aggregation.run, Run.within_bind_eq_ok] at h
    obtain ⟨_, _, -, h⟩ := h
    rw [Run.within_bind_eq_ok] at h
    obtain ⟨key, _, -, h⟩ := h
    rw [Aggregation.Mirrors]
    cases hempty : children.isEmpty with
    | true =>
      rw [hempty, if_pos rfl, Run.within_bind_eq_ok] at h
      obtain ⟨buckets, _, hbuckets, h⟩ := h
      cases h
      refine ⟨buckets, rfl, ?_⟩
      -- there are no children, and no results of theirs
      rw [List.isEmpty_iff.mp hempty]
      intro bucket hbucket
      obtain ⟨k, count, members, rfl, hholds⟩ := groupedBuckets_hold hbuckets bucket hbucket
      exact ⟨k, count, "", [], members, rfl, hholds, by rw [Aggregations.Mirror]⟩
    | false =>
      rw [hempty, if_neg Bool.false_ne_true, Run.within_bind_eq_ok] at h
      obtain ⟨buckets, _, hbuckets, h⟩ := h
      cases h
      refine ⟨buckets, rfl, ?_⟩
      refine materializedBuckets_hold
        (P := fun scope results => Aggregations.Mirror b c scope children results)
        (fun hresults => ?_) hbuckets
      have hmirror := Aggregations.mirror_of_run hdistinct hresults
      refine ⟨hmirror, ?_⟩
      rw [hmirror.names_eq]
      exact Aggregations.nodup_of_distinct hdistinct

/-- **What a walk gives has the shape of its siblings**, at every depth. -/
theorem Aggregations.mirror_of_run :
    ∀ {siblings : List (String × Aggregation)} {w after : World σ} {results : List (String × Json)},
      Aggregations.Distinct siblings →
      (Aggregations.run b c siblings).within w = (.ok results, after) →
        Aggregations.Mirror b c w.scope siblings results
  | [], w, after, results, _, h => by
    rw [Aggregations.run] at h
    cases h
    rw [Aggregations.Mirror]
  | (name, a) :: rest, w, after, results, hdistinct, h => by
    rw [Aggregations.Distinct] at hdistinct
    obtain ⟨-, ha, hrest⟩ := hdistinct
    rw [Aggregations.run, Run.within_bind_eq_ok] at h
    obtain ⟨result, between, hresult, h⟩ := h
    rw [Run.within_bind_eq_ok] at h
    obtain ⟨others, _, hothers, h⟩ := h
    cases h
    -- all siblings are computed over the source of the first one
    have hscope : between.scope = w.scope := by
      have hkept := a.scope_run (b := b) (c := c) w
      rw [hresult] at hkept
      exact hkept
    have hmirror := Aggregations.mirror_of_run hrest hothers
    rw [hscope] at hmirror
    rw [Aggregations.Mirror]
    exact ⟨result, others, rfl, ⟨w, between, rfl, hresult⟩,
      Aggregation.mirrors_of_run ha hresult, hmirror⟩

end

end Walks

/-! ### Requests -/

/-- A histogram with one child, which counts the values of a field, can be read back. -/
theorem readable_counted (child : String) :
    Aggregations.Readable
      [("h", .dateHistogram "at" .day none [(child, .metric .valueCount "n")])] := by
  have hat : Field.checkName "at" = .ok () := rfl
  have hn : Field.checkName "n" = .ok () := rfl
  exact ⟨⟨hat, fun f hf => absurd hf (Option.not_mem_none f), hn, trivial⟩, trivial⟩

/-- **What a walk gives has the shape of the request.**  The names are those of the
request, in its order; each sibling has what it gives under its name; a metric has one
value, a histogram has buckets, and a bucket says its key, its count and, if there is a
format, the text of its key, and then gives the results of its children, which have the
shape of the request in turn.  Only what a bucket says of itself can be lost, and only to a
child of the same name. -/
theorem results_mirror_request {b : Backend σ} {c : SearchContext} {v : Json}
    {siblings : Aggregations} (hv : v.Distinct)
    (hread : Aggregations.ofJson v = .ok siblings) {w after : World σ}
    {results : List (String × Json)}
    (hwalk : (Aggregations.execute b c siblings).within w = (.ok results, after)) :
    ∃ ms, v = .obj ms ∧ names results = names ms ∧ (names results).Nodup ∧
      Aggregations.Mirror b c w.scope siblings results := by
  have hdistinct : Aggregations.Distinct siblings := Aggregations.distinct_of_ofValue hv hread
  rw [Aggregations.execute, Run.within_bind_eq_ok] at hwalk
  obtain ⟨_, between, hcheck, hwalk⟩ := hwalk
  have hmirror := Aggregations.mirror_of_run hdistinct hwalk
  have hsame : between = w := (congrArg Prod.snd hcheck).symm
  rw [hsame] at hmirror
  have hnodup : (names results).Nodup := by
    rw [hmirror.names_eq]
    exact Aggregations.nodup_of_distinct hdistinct
  cases v with
  | obj ms =>
    have hnames := Aggregations.names_of_ofMembers hread
    exact ⟨ms, rfl, hmirror.names_eq.trans hnames, hnodup, hmirror⟩
  | _ => cases hread

/-- A request whose buckets have a child called like their own count. -/
theorem results_mirror_request_count :
    let siblings : Aggregations :=
      [("h", .dateHistogram "at" .day none [("doc_count", .metric .valueCount "n")])]
    let b := Replay.backend Dialect.sqlite
    let c : SearchContext :=
      ⟨[⟨"p", "sift_idx_p"⟩], [], Mappings.empty.put "p" none "at" .date, "body"⟩
    let w := World.start
      { replies := [.ok [[.integer 0]], .ok [[.integer 1]], .ok [[.integer 1]]] : Replay }
    ∃ results after, siblings.toJson.Distinct ∧
      Aggregations.ofJson siblings.toJson = .ok siblings ∧
      (Aggregations.execute b c siblings).within w = (.ok results, after) ∧
      ∃ ms, siblings.toJson = .obj ms ∧ names results = names ms ∧ (names results).Nodup ∧
        Aggregations.Mirror b c w.scope siblings results := by
  intro siblings b c w
  have hdistinct : siblings.toJson.Distinct :=
    Json.distinct_of_read (s := siblings.toJson.print) (by cbv)
  have hread : Aggregations.ofJson siblings.toJson = .ok siblings :=
    Aggregations.ofJson_of_readable (readable_counted "doc_count")
  have hcalm : w.state.Calm [[[.integer 0]], [[.integer 1]], [[.integer 1]]] :=
    ⟨rfl, rfl, rfl, rfl⟩
  have hkey : bucketKey c "at" .day = .ok ⟨"at", .formatted, .day⟩ := rfl
  obtain ⟨after, hwalk⟩ := hcalm.execute .sqlite hkey "doc_count" "n"
  exact ⟨_, after, hdistinct, hread, hwalk, results_mirror_request hdistinct hread hwalk⟩

/-- **A child called `key` takes the place of the key.**  The result of the child stands
under its name, and the bucket no longer says its key. -/
theorem bucket_loses_its_key :
    let siblings : Aggregations :=
      [("h", .dateHistogram "at" .day none [("key", .metric .valueCount "n")])]
    let c : SearchContext :=
      ⟨[⟨"p", "sift_idx_p"⟩], [], Mappings.empty.put "p" none "at" .date, "body"⟩
    let w := World.start
      { replies := [.ok [[.integer 0]], .ok [[.integer 1]], .ok [[.integer 1]]] : Replay }
    ∃ members after, siblings.toJson.Distinct ∧
      Aggregations.ofJson siblings.toJson = .ok siblings ∧
      (Aggregations.execute (Replay.backend .sqlite) c siblings).within w =
        (.ok [("h", .obj [("buckets", .arr [.obj members])])], after) ∧
      members.lookup "key" = some (.obj [("value", .ofInt 1)]) ∧
      ∀ n, members.lookup "key" ≠ some (.ofInt n) := by
  intro siblings c w
  have hdistinct : siblings.toJson.Distinct :=
    Json.distinct_of_read (s := siblings.toJson.print) (by cbv)
  have hcalm : w.state.Calm [[[.integer 0]], [[.integer 1]], [[.integer 1]]] :=
    ⟨rfl, rfl, rfl, rfl⟩
  have hkey : bucketKey c "at" .day = .ok ⟨"at", .formatted, .day⟩ := rfl
  obtain ⟨after, hwalk⟩ := hcalm.execute .sqlite hkey "key" "n"
  refine ⟨_, after, hdistinct,
    Aggregations.ofJson_of_readable (readable_counted "key"), hwalk, rfl, fun n hn => ?_⟩
  cases hn

end DocSearch
