import DocSearch.Proofs.Aggregation.Distinct
import DocSearch.Proofs.Engine.Histogram
import DocSearch.Proofs.Engine.Renaming
import DocSearch.Proofs.Json.Reordered
import Mathlib.Data.List.Perm.Basic

/-!
# Siblings do not influence each other

Siblings share the temporary tables of a walk: two histograms over the same field and
interval fill their tables once, and the second one reads what the first one has filled.
Still each sibling gives what it would give alone, since tables of one name hold the same
rows, and each starts from the source from which the walk has started.  So the order of
siblings is seen in nothing but the order of the names of their results, at every level.

## Main definitions

* `Origin.results` — what a walk gives that has a database for itself.
* `Aggregation.Permuted`, `Aggregations.Permuted` — siblings stand in another order, at any
  level.

## Main results

* `Aggregations.value_eq_ok` — siblings have their values one by one.
* `Aggregations.value_permuted` — the values of permuted siblings are permuted.
* `siblings_independent` — siblings do not influence each other.
-/

namespace DocSearch

open Steps Members

/-! ### Siblings one by one -/

section Values

variable {o : Origin} {p : Place}

/-- The same step for each of a list comes to related results if another one does. -/
theorem mapM_related {ε α β γ : Type} {R : β → γ → Prop} {f : α → Except ε β}
    {g : α → Except ε γ} {as : List α} {bs : List β}
    (h : ∀ a ∈ as, ∀ b, f a = .ok b → ∃ c, g a = .ok c ∧ R b c) (hbs : as.mapM f = .ok bs) :
    ∃ cs, as.mapM g = .ok cs ∧ List.Forall₂ R bs cs := by
  induction as generalizing bs with
  | nil =>
    cases hbs
    exact ⟨[], rfl, .nil⟩
  | cons a as ih =>
    rw [List.forall_mem_cons] at h
    rw [List.mapM_cons] at hbs ⊢
    obtain ⟨b, hb, hbs⟩ := bind_eq_ok.mp hbs
    obtain ⟨rest, hrest, hbs⟩ := bind_eq_ok.mp hbs
    rw [pure_eq_ok] at hbs
    obtain ⟨c, hc, hbc⟩ := h.1 b hb
    obtain ⟨cs, hcs, hrelated⟩ := ih h.2 hrest
    refine ⟨c :: cs, bind_eq_ok.mpr ⟨c, hc, bind_eq_ok.mpr ⟨cs, hcs, rfl⟩⟩, ?_⟩
    rw [← hbs]
    exact .cons hbc hrelated

/-- **Siblings have their values one by one.** -/
theorem Aggregations.value_eq_ok {siblings : List (String × Aggregation)}
    {results : List (String × Json)} : Aggregations.value o siblings p = .ok results ↔
      List.Forall₂ (fun s r => s.1 = r.1 ∧ s.2.value o p = .ok r.2) siblings results := by
  induction siblings generalizing results with
  | nil =>
    rw [Aggregations.value, pure_eq_ok, List.forall₂_nil_left_iff]
    exact eq_comm
  | cons s rest ih =>
    obtain ⟨name, a⟩ := s
    rw [Aggregations.value, bind_eq_ok, List.forall₂_cons_left_iff]
    constructor
    · rintro ⟨result, hresult, h⟩
      obtain ⟨others, hothers, h⟩ := bind_eq_ok.mp h
      rw [pure_eq_ok] at h
      exact ⟨(name, result), others, ⟨rfl, hresult⟩, ih.mp hothers, h.symm⟩
    · rintro ⟨⟨name', result⟩, others, ⟨hname, hresult⟩, hothers, rfl⟩
      obtain rfl : name = name' := hname
      exact ⟨result, hresult, bind_eq_ok.mpr ⟨others, ih.mpr hothers, rfl⟩⟩

theorem Aggregations.mem_tables {siblings : List (String × Aggregation)} {t : Table} :
    t ∈ Aggregations.tables o siblings p ↔ ∃ s ∈ siblings, t ∈ s.2.tables o p := by
  induction siblings with
  | nil => simp [Aggregations.tables]
  | cons s rest ih => simp [Aggregations.tables, ih]

end Values

/-! ### Permutations -/

/-- The siblings below an aggregation stand in another order, at any level. -/
inductive Aggregation.Permuted : Aggregation → Aggregation → Prop where
  /-- Nothing is below a metric. -/
  | metric (m : Metric) (field : String) : Permuted (.metric m field) (.metric m field)
  /-- The children of a histogram stand in another order, and so do the siblings below
  them. -/
  | dateHistogram (field : String) (interval : Interval) (format : Option DateFormat)
    {children between permuted : List (String × Aggregation)}
    (hnames : names children = names between)
    (hbelow : List.Forall₂ Permuted (children.map Prod.snd) (between.map Prod.snd))
    (hperm : between.Perm permuted) :
    Permuted (.dateHistogram field interval format children)
      (.dateHistogram field interval format permuted)

/-- Siblings have the same names one by one, and those below them stand in another order. -/
abbrev Aggregations.Alike : List (String × Aggregation) → List (String × Aggregation) → Prop :=
  List.Forall₂ fun s t => s.1 = t.1 ∧ s.2.Permuted t.2

/-- Siblings stand in another order, and so do those below them. -/
def Aggregations.Permuted (siblings permuted : List (String × Aggregation)) : Prop :=
  ∃ between, Aggregations.Alike siblings between ∧ between.Perm permuted

mutual

theorem Aggregation.Permuted.refl : ∀ a : Aggregation, a.Permuted a
  | .metric m field => .metric m field
  | .dateHistogram field interval format children =>
    .dateHistogram field interval format rfl (Aggregations.forall₂_permuted children)
      (List.Perm.refl children)

theorem Aggregations.forall₂_permuted : ∀ siblings : List (String × Aggregation),
    List.Forall₂ Aggregation.Permuted (siblings.map Prod.snd) (siblings.map Prod.snd)
  | [] => .nil
  | (_, a) :: rest => .cons (Aggregation.Permuted.refl a) (Aggregations.forall₂_permuted rest)

end

/-- A permutation of the siblings of one level. -/
theorem Aggregations.permuted_of_perm {siblings permuted : List (String × Aggregation)}
    (h : siblings.Perm permuted) : Aggregations.Permuted siblings permuted :=
  ⟨siblings, forall₂_iff.mpr ⟨rfl, Aggregations.forall₂_permuted siblings⟩, h⟩

/-- What is below a histogram whose children are permuted. -/
theorem Aggregation.Permuted.children {field : String} {interval : Interval}
    {format : Option DateFormat} {children : List (String × Aggregation)} {b : Aggregation}
    (h : (Aggregation.dateHistogram field interval format children).Permuted b) :
    ∃ permuted, b = .dateHistogram field interval format permuted ∧
      Aggregations.Permuted children permuted := by
  cases h with
  | dateHistogram _ _ _ hnames hbelow hperm =>
    exact ⟨_, rfl, _, forall₂_iff.mpr ⟨hnames, hbelow⟩, hperm⟩

theorem Aggregations.Permuted.isEmpty_eq {siblings permuted : List (String × Aggregation)}
    (h : Aggregations.Permuted siblings permuted) : permuted.isEmpty = siblings.isEmpty := by
  obtain ⟨between, halike, hperm⟩ := h
  rw [Bool.eq_iff_iff, List.isEmpty_iff_length_eq_zero, List.isEmpty_iff_length_eq_zero,
    ← hperm.length_eq, ← halike.length_eq]

section Permutations

variable {o : Origin}

mutual

/-- The walk of a permuted aggregation asks for no other tables. -/
theorem Aggregation.tables_permuted : ∀ {a b : Aggregation} {p : Place} {t : Table},
    a.Permuted b → t ∈ b.tables o p → t ∈ a.tables o p
  | .metric m field, b, p, t, h, ht => by
    cases h
    exact ht
  | .dateHistogram field interval format children, b, p, t, h, ht => by
    obtain ⟨permuted, rfl, hpermuted⟩ := h.children
    have hempty := hpermuted.isEmpty_eq
    obtain ⟨between, halike, hperm⟩ := hpermuted
    rw [Aggregation.tables] at ht ⊢
    cases hkey : bucketKey o.context field interval with
    | error e =>
      rw [hkey] at ht
      cases ht
    | ok key =>
      rw [hkey] at ht
      simp only [hempty] at ht ⊢
      split at ht
      · cases ht
      next hchildren =>
      rw [if_neg hchildren]
      rcases List.mem_cons.mp ht with rfl | ht
      · exact List.mem_cons_self
      refine List.mem_cons_of_mem _ ?_
      cases hrows : (o.bucketed p key).rows with
      | error e =>
        rw [hrows] at ht
        cases ht
      | ok rows =>
        rw [hrows] at ht
        obtain ⟨k, hk, ht⟩ := List.mem_flatMap.mp ht
        refine List.mem_flatMap.mpr ⟨k, hk, ?_⟩
        rcases List.mem_cons.mp ht with rfl | ht
        · exact List.mem_cons_self
        · -- a table of a child is one of a child in the other order
          obtain ⟨s, hs, ht⟩ := Aggregations.mem_tables.mp ht
          have hbetween := Aggregations.mem_tables.mpr ⟨s, hperm.mem_iff.mpr hs, ht⟩
          exact List.mem_cons_of_mem _ (Aggregations.tables_alike halike hbetween)

theorem Aggregations.tables_alike : ∀ {siblings between : List (String × Aggregation)}
    {p : Place} {t : Table}, Aggregations.Alike siblings between →
      t ∈ Aggregations.tables o between p → t ∈ Aggregations.tables o siblings p
  | [], between, p, t, h, ht => by
    cases h
    exact ht
  | (name, a) :: rest, between, p, t, h, ht => by
    cases h with
    | @cons _ s _ others hs hothers =>
      obtain ⟨name', b⟩ := s
      rw [Aggregations.tables] at ht ⊢
      rcases List.mem_append.mp ht with ht | ht
      · exact List.mem_append_left _ (Aggregation.tables_permuted hs.2 ht)
      · exact List.mem_append_right _ (Aggregations.tables_alike hothers ht)

end

theorem Aggregations.tables_permuted {siblings permuted : List (String × Aggregation)} {p : Place}
    {t : Table} (h : Aggregations.Permuted siblings permuted)
    (ht : t ∈ Aggregations.tables o permuted p) : t ∈ Aggregations.tables o siblings p := by
  obtain ⟨between, halike, hperm⟩ := h
  obtain ⟨s, hs, ht⟩ := Aggregations.mem_tables.mp ht
  have hbetween := Aggregations.mem_tables.mpr ⟨s, hperm.mem_iff.mpr hs, ht⟩
  exact Aggregations.tables_alike halike hbetween

/-- Siblings in another order have their values in this order. -/
theorem Aggregations.value_perm {siblings permuted : List (String × Aggregation)} {p : Place}
    {results : List (String × Json)} (hperm : siblings.Perm permuted)
    (h : Aggregations.value o siblings p = .ok results) :
    ∃ results', Aggregations.value o permuted p = .ok results' ∧ results.Perm results' := by
  obtain ⟨results', hvalues, hresults⟩ :=
    List.perm_comp_forall₂ hperm.symm (Aggregations.value_eq_ok.mp h)
  exact ⟨results', Aggregations.value_eq_ok.mpr hvalues, hresults.symm⟩

theorem nodup_names_bucketMembers (format : Option DateFormat) (key count : Int64) :
    (names (bucketMembers format key count)).Nodup := by
  cases format <;> simp [names, bucketMembers]

mutual

/-- **The value of a permuted aggregation is the value in another order.** -/
theorem Aggregation.value_permuted : ∀ {a b : Aggregation} {p : Place} {j : Json},
    a.Permuted b → a.Distinct → a.value o p = .ok j →
      ∃ j', b.value o p = .ok j' ∧ j.Reordered j'
  | .metric m field, b, p, j, h, _, hvalue => by
    cases h
    exact ⟨j, hvalue, .same j⟩
  | .dateHistogram field interval format children, b, p, j, h, hdistinct, hvalue => by
    obtain ⟨permuted, rfl, hpermuted⟩ := h.children
    have hsame := hpermuted.isEmpty_eq
    -- first every child is rearranged in its place, and then the children change places
    obtain ⟨between, halike, hperm⟩ := hpermuted
    rw [Aggregation.Distinct] at hdistinct
    rw [Aggregation.value] at hvalue ⊢
    obtain ⟨key, hkey, hvalue⟩ := bind_eq_ok.mp hvalue
    cases hempty : children.isEmpty with
    | true =>
      rw [hempty] at hvalue hsame
      refine ⟨j, bind_eq_ok.mpr ⟨key, hkey, ?_⟩, .same j⟩
      rw [hsame]
      exact hvalue
    | false =>
      rw [hempty] at hvalue hsame
      obtain ⟨buckets, hbuckets, hvalue⟩ := bind_eq_ok.mp hvalue
      obtain ⟨rows, hrows, hbuckets⟩ := bind_eq_ok.mp hbuckets
      rw [pure_eq_ok] at hvalue
      obtain ⟨buckets', hbuckets', hreordered⟩ : ∃ buckets',
          (bucketKeys rows).mapM (fun k => Origin.bucketOf format rows k
            (Aggregations.value o permuted (.bucket p key k))) = .ok buckets' ∧
          List.Forall₂ Json.Reordered buckets buckets' := by
        refine mapM_related (fun k _ bucket hbucket => ?_) hbuckets
        obtain ⟨results, hresults, hbucket⟩ := bind_eq_ok.mp hbucket
        rw [pure_eq_ok] at hbucket
        obtain ⟨middle, hmiddle, halikeResults⟩ :=
          Aggregations.value_alike halike hdistinct hresults
        obtain ⟨results', hresults', hpermResults⟩ := Aggregations.value_perm hperm hmiddle
        have hnodup : (names results).Nodup := by
          rw [Aggregations.names_value hresults]
          exact Aggregations.nodup_of_distinct hdistinct
        have hmembers : MembersReordered results results' := ⟨middle, halikeResults, hpermResults⟩
        refine ⟨_, bind_eq_ok.mpr ⟨results', hresults', rfl⟩, ?_⟩
        rw [← hbucket]
        exact (hmembers.putAll (nodup_names_bucketMembers _ _ _) hnodup).obj
      refine ⟨.obj [("buckets", .arr buckets')], bind_eq_ok.mpr ⟨key, hkey, ?_⟩, ?_⟩
      · rw [hsame]
        exact bind_eq_ok.mpr ⟨buckets', bind_eq_ok.mpr ⟨rows, hrows, hbuckets'⟩, rfl⟩
      · rw [← hvalue]
        have hmembers : MembersAlike [("buckets", .arr buckets)] [("buckets", .arr buckets')] :=
          .cons ⟨rfl, .arr hreordered⟩ .nil
        exact MembersReordered.obj ⟨_, hmembers, .refl _⟩

theorem Aggregations.value_alike : ∀ {siblings between : List (String × Aggregation)} {p : Place}
    {results : List (String × Json)}, Aggregations.Alike siblings between →
      Aggregations.Distinct siblings → Aggregations.value o siblings p = .ok results →
      ∃ results', Aggregations.value o between p = .ok results' ∧ MembersAlike results results'
  | [], between, p, results, h, _, hvalue => by
    cases h
    rw [Aggregations.value, pure_eq_ok] at hvalue
    exact ⟨results, by rw [Aggregations.value, hvalue]; rfl, .refl results⟩
  | (name, a) :: rest, between, p, results, h, hdistinct, hvalue => by
    cases h with
    | @cons _ s _ others hs hothers =>
      obtain ⟨name', b⟩ := s
      obtain ⟨rfl, hb⟩ : name = name' ∧ a.Permuted b := hs
      obtain ⟨-, ha, hrest⟩ := hdistinct
      rw [Aggregations.value] at hvalue
      obtain ⟨result, hresult, hvalue⟩ := bind_eq_ok.mp hvalue
      obtain ⟨more, hmore, hvalue⟩ := bind_eq_ok.mp hvalue
      rw [pure_eq_ok] at hvalue
      obtain ⟨result', hresult', hreordered⟩ := Aggregation.value_permuted hb ha hresult
      obtain ⟨more', hmore', halike⟩ := Aggregations.value_alike hothers hrest hmore
      refine ⟨(name, result') :: more', ?_, ?_⟩
      · rw [Aggregations.value]
        exact bind_eq_ok.mpr ⟨result', hresult', bind_eq_ok.mpr ⟨more', hmore', rfl⟩⟩
      · rw [← hvalue]
        exact .cons ⟨rfl, hreordered⟩ halike

end

/-- **The values of permuted siblings are the values in another order.** -/
theorem Aggregations.value_permuted {siblings permuted : List (String × Aggregation)} {p : Place}
    {results : List (String × Json)} (h : Aggregations.Permuted siblings permuted)
    (hdistinct : Aggregations.Distinct siblings)
    (hvalue : Aggregations.value o siblings p = .ok results) :
    ∃ results', Aggregations.value o permuted p = .ok results' ∧
      MembersReordered results results' := by
  obtain ⟨between, halike, hperm⟩ := h
  obtain ⟨middle, hmiddle, hmembers⟩ := Aggregations.value_alike halike hdistinct hvalue
  obtain ⟨results', hresults', hresults⟩ := Aggregations.value_perm hperm hmiddle
  exact ⟨results', hresults', middle, hmembers, hresults⟩

end Permutations

/-! ### Walks -/

/-- What the walk of siblings gives if it has the database for itself, whatever temporary
tables are left over in it. -/
def Origin.results (o : Origin) (siblings : Aggregations) :
    Except ExecutionError (List (String × Json)) :=
  ((Aggregations.execute Session.backend o.context siblings).within
    { state := ⟨o.database, false⟩, scope := o.source .whole }).1

/-- A walk that has a database for itself comes to the values of its siblings. -/
theorem Origin.results_eq_value {o : Origin} {siblings : Aggregations}
    (h : Distinguished (· ∈ Aggregations.tables o siblings .whole)) :
    o.results siblings = Aggregations.value o siblings .whole := by
  have hcoherent : Coherent (· ∈ Aggregations.tables o siblings .whole) :=
    coherent_of_distinguished h o.recognized_self fun t ht =>
      ⟨o, rfl, Aggregations.asks_of_mem_tables siblings .whole (fun _ hu => hu) t ht⟩
  have hgives := Aggregations.execute_gives (Session.serves hcoherent) siblings
    (Session.undisturbed_start o.database (o.source .whole)) (Origin.holds_whole rfl) fun _ ht => ht
  exact hgives.result.resolve_right fun ⟨_, _, hfalse⟩ => hfalse

/-! ### Siblings that share their tables -/

section Shared

variable {o : Origin} {key : BucketKey} {rows : List TemporaryRow}

/-- A daily histogram with one bucket that counts identifiers. -/
abbrev daily (format : Option DateFormat) : Aggregation :=
  .dateHistogram "at" .day format [("n", .metric .valueCount "_id")]

/-- Two daily histograms ask for the same two tables. -/
theorem distinguished_daily (hkey : bucketKey o.context "at" .day = .ok key)
    (hrows : (o.bucketed .whole key).rows = .ok rows) (hkeys : bucketKeys rows = [0])
    (hdigests : tableDigest (o.bucketed .whole key).parts ≠
      tableDigest (bucketParts (o.bucketed .whole key).name 0))
    (hshort : ∀ part ∈ (o.bucketed .whole key).parts ++ bucketParts (o.bucketed .whole key).name 0,
      IsShort part) (format : Option DateFormat) :
    Distinguished (· ∈ Aggregations.tables o [("a", daily none), ("b", daily format)] .whole) := by
  have hlist : Distinguished (· ∈ [o.bucketed .whole key, o.inBucket .whole key rows 0]) := by
    refine .of_nodup ?_ ?_
    · rw [List.forall_mem_append] at hshort
      rw [List.forall_mem_cons, List.forall_mem_singleton]
      exact hshort
    · rw [List.map_cons, List.map_singleton, List.nodup_cons, List.mem_singleton]
      exact ⟨hdigests, List.nodup_singleton _⟩
  refine hlist.mono fun t ht => ?_
  simp only [Aggregations.tables, Aggregation.tables, hkey, List.isEmpty_cons,
    Bool.false_eq_true, if_false, hrows, hkeys, List.flatMap_cons, List.flatMap_nil,
    List.append_nil, List.mem_append, or_self] at ht
  exact ht

/-- A daily histogram has a value. -/
theorem value_daily (hkey : bucketKey o.context "at" .day = .ok key)
    (hrows : (o.bucketed .whole key).rows = .ok rows) (format : Option DateFormat) :
    ∃ j, (daily format).value o .whole = .ok j := by
  have heach : ∀ k ∈ bucketKeys rows, ∃ bucket, Origin.bucketOf format rows k
      (Aggregations.value o [("n", .metric .valueCount "_id")] (.bucket .whole key k)) =
        .ok bucket := by
    intro k _
    obtain ⟨results, hresults⟩ := value_countIds hrows k
    exact ⟨_, bind_eq_ok.mpr ⟨results, hresults, rfl⟩⟩
  obtain ⟨buckets, hbuckets⟩ := mapM_total heach
  refine ⟨.obj [("buckets", .arr buckets)], ?_⟩
  rw [Aggregation.value]
  exact bind_eq_ok.mpr ⟨key, hkey, bind_eq_ok.mpr ⟨buckets,
    bind_eq_ok.mpr ⟨rows, mapError_eq_ok.mpr hrows, hbuckets⟩, rfl⟩⟩

end Shared

/-! ### Independence -/

/-- **Siblings do not influence each other.**  What a walk gives under the name of a sibling
is what a walk for this sibling alone gives, over the same documents and in whatever text it
is asked for.  If siblings stand in another order, at any level, then the results differ in
the order of their names only. -/
theorem siblings_independent {o o' : Origin} (hakin : o.Akin o') {siblings : Aggregations}
    (hdistinct : Aggregations.Distinct siblings)
    (htold : Distinguished (· ∈ Aggregations.tables o siblings .whole))
    (htold' : Distinguished (· ∈ Aggregations.tables o' siblings .whole))
    {results : List (String × Json)} (hwalk : o.results siblings = .ok results) :
    List.Forall₂ (fun s r => s.1 = r.1 ∧ o'.results [s] = .ok [r]) siblings results ∧
      ∀ permuted, Aggregations.Permuted siblings permuted →
        ∃ results', o'.results permuted = .ok results' ∧
          (Json.obj results).Reordered (.obj results') := by
  rw [Origin.results_eq_value htold] at hwalk
  have hvalue := Aggregations.value_akin hakin hwalk
  constructor
  · have heach : List.Forall₂ (fun s r => s ∈ siblings ∧ s.1 = r.1 ∧ s.2.value o' .whole = .ok r.2)
        siblings results :=
      (List.forall₂_and_left _ _).mpr ⟨fun s hs => hs, Aggregations.value_eq_ok.mp hvalue⟩
    refine heach.imp fun s r ⟨hs, hname, hresult⟩ => ⟨hname, ?_⟩
    -- the tables of one sibling are among those of all, so digests still tell them apart
    have halone : Distinguished (· ∈ Aggregations.tables o' [s] .whole) := by
      refine htold'.mono fun t ht => ?_
      rw [Aggregations.mem_tables] at ht ⊢
      obtain ⟨s', hs', ht⟩ := ht
      rw [List.mem_singleton.mp hs'] at ht
      exact ⟨s, hs, ht⟩
    rw [Origin.results_eq_value halone]
    exact Aggregations.value_eq_ok.mpr (.cons ⟨hname, hresult⟩ .nil)
  · intro permuted hpermuted
    obtain ⟨results', hresults', hmembers⟩ :=
      Aggregations.value_permuted hpermuted hdistinct hvalue
    have hnames : Distinguished (· ∈ Aggregations.tables o' permuted .whole) :=
      htold'.mono fun t ht => Aggregations.tables_permuted hpermuted ht
    rw [Origin.results_eq_value hnames]
    exact ⟨results', hresults', hmembers.obj⟩

/-- Two histograms that share their tables, each alone where a table is left over, and both in
the other order. -/
theorem siblings_independent_shared :
    let o : Origin :=
      { database := { indices := [("p", [⟨"t", "1", .obj [("at", .ofInt 5000)]⟩])] }
        context := ⟨[⟨"p", "sift_idx_p"⟩], [], Mappings.empty.put "p" none "at" .date, "body"⟩
        condition := none }
    let o' : Origin := { o with database := { o.database with temporary := [("left", [])] } }
    let siblings : Aggregations :=
      [("a", daily none), ("b", daily (some ⟨"yyyy", .directives "%Y".toList⟩))]
    ∃ results results', o.results siblings = .ok results ∧
      List.Forall₂ (fun s r => s.1 = r.1 ∧ o'.results [s] = .ok [r]) siblings results ∧
      o'.results siblings.reverse = .ok results' ∧
      (Json.obj results).Reordered (.obj results') := by
  intro o o' siblings
  let key : BucketKey := ⟨"at", .formatted, .day⟩
  have hkey : bucketKey o.context "at" .day = .ok key := rfl
  have hakin : o.Akin o' := ⟨rfl, rfl, rfl⟩
  obtain ⟨rows, hrows, hkeys⟩ : ∃ rows, (o.bucketed .whole key).rows = .ok rows ∧
      bucketKeys rows = [0] := by
    have hkeys : (o.bucketed .whole key).rows.toOption.map bucketKeys = some [0] := by
      decide +kernel
    cases hrows : (o.bucketed .whole key).rows with
    | error e =>
      rw [hrows] at hkeys
      cases hkeys
    | ok rows =>
      rw [hrows] at hkeys
      exact ⟨rows, rfl, Option.some.inj hkeys⟩
  -- the digests and the keys are computed; all else follows from what holds of any such walk
  have hdigests : tableDigest (o.bucketed .whole key).parts ≠
        tableDigest (bucketParts (o.bucketed .whole key).name 0) ∧
      ∀ part ∈ (o.bucketed .whole key).parts ++ bucketParts (o.bucketed .whole key).name 0,
        (Text.utf8 part).length < 2 ^ 64 := by decide +kernel
  have htold := distinguished_daily hkey hrows hkeys hdigests.1 hdigests.2
    (some ⟨"yyyy", .directives "%Y".toList⟩)
  have htold' := distinguished_daily (o := o') hkey (hakin.rows_bucketed hrows) hkeys
    hdigests.1 hdigests.2 (some ⟨"yyyy", .directives "%Y".toList⟩)
  obtain ⟨x, hx⟩ := value_daily hkey hrows none
  obtain ⟨y, hy⟩ := value_daily hkey hrows (some ⟨"yyyy", .directives "%Y".toList⟩)
  have hwalk : o.results siblings = .ok [("a", x), ("b", y)] := by
    rw [Origin.results_eq_value htold]
    exact Aggregations.value_eq_ok.mpr (.cons ⟨rfl, hx⟩ (.cons ⟨rfl, hy⟩ .nil))
  have hdistinct : Aggregations.Distinct siblings := by
    simp [siblings, Aggregations.Distinct, Aggregation.Distinct, names]
  have hpermuted : Aggregations.Permuted siblings siblings.reverse :=
    Aggregations.permuted_of_perm (List.reverse_perm siblings).symm
  obtain ⟨halone, hreordered⟩ := siblings_independent hakin hdistinct htold htold' hwalk
  obtain ⟨results', hresults', hjson⟩ := hreordered siblings.reverse hpermuted
  exact ⟨_, results', hwalk, halone, hresults', hjson⟩

end DocSearch
