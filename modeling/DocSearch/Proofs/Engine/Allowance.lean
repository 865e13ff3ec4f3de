import DocSearch.Proofs.Engine.Sharing

/-!
# How many statements a search issues

A metric is one statement, and so is a histogram without children.  A histogram with children
creates a table and asks for its buckets, and then it creates and counts a table for each of
them.  Every table that is registered is dropped once in the end.  So the aggregations of a
request tell how many statements a search issues at most, as soon as it is known how many buckets
a histogram has at most.

## Main definitions

* `World.charge` — the statements that have been issued, and the drops that are still due.
* `Run.Spends` — a computation adds at most so much to that.
* `ListsAtMost` — a database lists no more than so many buckets.
* `Aggregation.cost`, `Aggregations.cost` — what a walk adds at most.
* `Corpus.allowance` — the statements of a search, counted from the tables that it asks for.

## Main results

* `Spends.bind`, `Spends.mapM` — sequences add what their parts add.
* `Aggregations.run_spends`, `search_spends` — a walk and a search add at most their cost.
* `Corpus.length_issued_le` — a search that shares its database stays within its allowance.
-/

namespace DocSearch

open Sql

variable {σ : Type}

/-! ### What a computation adds -/

/-- The statements that have been issued, and the drops that are due to what is registered. -/
def World.charge (w : World σ) : Nat := w.log.length + w.arena.size

namespace Run

variable {ε ε' α β : Type} {P : σ → Prop} {S : Statement → Prop} {n m : Nat} {w : World σ}

/-- From a world, a computation adds at most `n` statements, as long as all statements are of
some kind.  It keeps a property of the state of the database. -/
structure SpendsAt (P : σ → Prop) (S : Statement → Prop) (n : Nat) (r : Run σ ε α) (w : World σ) :
    Prop where
  keeps : P (r.within w).2.state
  grows : w.log <:+ (r.within w).2.log
  charge : (∀ i ∈ (r.within w).2.log, S i.statement) → (r.within w).2.charge ≤ w.charge + n

/-- The same from all worlds in which the state of the database has the property. -/
def Spends (P : σ → Prop) (S : Statement → Prop) (n : Nat) (r : Run σ ε α) : Prop :=
  ∀ w, P w.state → SpendsAt P S n r w

theorem SpendsAt.mono {r : Run σ ε α} (hr : SpendsAt P S n r w) (h : n ≤ m) : SpendsAt P S m r w :=
  ⟨hr.keeps, hr.grows, fun hS => Nat.le_trans (hr.charge hS) (by omega)⟩

theorem Spends.mono {r : Run σ ε α} (hr : Spends P S n r) (h : n ≤ m) : Spends P S m r :=
  fun w hw => (hr w hw).mono h

/-- A computation that leaves the world as it is. -/
theorem Spends.of_world_eq {r : Run σ ε α} (h : ∀ w, (r.within w).2 = w) : Spends P S 0 r := by
  intro w hw
  refine ⟨?_, ?_, fun _ => ?_⟩
  · rw [h]
    exact hw
  · exact (congrArg World.log (h w)).symm ▸ List.suffix_refl w.log
  · exact Nat.le_of_eq (congrArg World.charge (h w))

theorem Spends.pure (a : α) : Spends P S 0 (Pure.pure a : Run σ ε α) := .of_world_eq fun _ => rfl

theorem Spends.read (f : World σ → α) : Spends P S 0 (Run.read f : Run σ ε α) :=
  .of_world_eq fun _ => rfl

theorem Spends.lift (x : Except ε α) : Spends P S 0 (Run.lift x) := .of_world_eq fun _ => rfl

/-- **A sequence adds what both of its parts add.** -/
theorem SpendsAt.bind {x : Run σ ε α} {f : α → Run σ ε β} (hx : SpendsAt P S n x w)
    (hf : ∀ a after, x.within w = (.ok a, after) → P after.state → SpendsAt P S m (f a) after) :
    SpendsAt P S (n + m) (x >>= f) w := by
  obtain ⟨hkeeps, hgrows, hcharge⟩ := hx
  cases h : x.within w with
  | mk result after =>
    rw [h] at hkeeps hgrows hcharge
    cases result with
    | error e =>
      have hbind : (x >>= f).within w = (.error e, after) := by rw [within_bind, h]
      refine ⟨by rwa [hbind], by rwa [hbind], fun hS => ?_⟩
      rw [hbind] at hS ⊢
      exact Nat.le_trans (hcharge hS) (by omega)
    | ok a =>
      have hbind : (x >>= f).within w = (f a).within after := by rw [within_bind, h]
      obtain ⟨hkeeps', hgrows', hcharge'⟩ := hf a after h hkeeps
      refine ⟨by rwa [hbind], by rw [hbind]; exact hgrows.trans hgrows', fun hS => ?_⟩
      rw [hbind] at hS ⊢
      -- what has been issued first is still in the log
      have hfirst : after.charge ≤ w.charge + n := hcharge fun i hi => hS i (hgrows'.subset hi)
      have hsecond := hcharge' hS
      omega

theorem Spends.bind {x : Run σ ε α} {f : α → Run σ ε β} (hx : Spends P S n x)
    (hf : ∀ a, Spends P S m (f a)) : Spends P S (n + m) (x >>= f) :=
  fun w hw => (hx w hw).bind fun a after _ hafter => hf a after hafter

/-- What is lifted is known to what comes second. -/
theorem Spends.lift_bind {x : Except ε α} {f : α → Run σ ε β}
    (hf : ∀ a, x = .ok a → Spends P S n (f a)) : Spends P S n (Run.lift x >>= f) := by
  cases x with
  | error e => exact (Spends.of_world_eq fun _ => rfl).mono (Nat.zero_le n)
  | ok a => exact hf a rfl

theorem Spends.mapM {f : α → Run σ ε β} (hf : ∀ a, Spends P S n (f a)) (as : List α) :
    Spends P S (as.length * n) (as.mapM f) := by
  induction as with
  | nil => exact (Spends.pure []).mono (Nat.zero_le _)
  | cons a as ih =>
    rw [List.mapM_cons]
    refine ((hf a).bind fun b => ih.bind fun bs => .pure (b :: bs)).mono ?_
    rw [List.length_cons, Nat.succ_mul]
    omega

theorem Spends.mapError {r : Run σ ε α} (hr : Spends P S n r) (f : ε → ε') :
    Spends P S n (r.mapError f) := fun w hw =>
  have ⟨hkeeps, hgrows, hcharge⟩ := hr w hw
  ⟨hkeeps, hgrows, hcharge⟩

theorem Spends.capture {r : Run σ ε α} (hr : Spends P S n r) :
    Spends P S n (r.capture : Run σ ε' _) := fun w hw =>
  have ⟨hkeeps, hgrows, hcharge⟩ := hr w hw
  ⟨hkeeps, hgrows, hcharge⟩

theorem Spends.withScope {r : Run σ ε α} (hr : Spends P S n r) (scope : Source) :
    Spends P S n (DocSearch.withScope scope r) := fun w hw =>
  have ⟨hkeeps, hgrows, hcharge⟩ := hr { w with scope } hw
  ⟨hkeeps, hgrows, hcharge⟩

end Run

open Run

/-! ### Statements -/

/-- A database stays in states of some kind, and in these it lists at most `K` buckets in answer
to statements of some kind. -/
structure ListsAtMost (b : Backend σ) (P : σ → Prop) (S : Statement → Prop) (K : Nat) : Prop where
  keeps : ∀ {s : Statement} {state : σ}, P state → P (b.run s state).2
  length_le : ∀ {name : String} {state : σ} {rows : List Row}, P state → S (.buckets name) →
    (b.run (.buckets name) state).1 = .ok rows → rows.length ≤ K

section Searches

variable {b : Backend σ} {P : σ → Prop} {S : Statement → Prop} {K n : Nat}

theorem issue_spends (hb : ListsAtMost b P S K) (s : Statement) : Spends P S 1 (issue b s) :=
  fun w hw => ⟨hb.keeps hw, List.suffix_cons _ _, fun _ => by
    show w.log.length + 1 + w.arena.size ≤ w.log.length + w.arena.size + 1
    omega⟩

theorem query_spends (hb : ListsAtMost b P S K) (s : Statement) : Spends P S 1 (query b s) :=
  (issue_spends hb s).mapError _

theorem checkCancelled_spends : Spends P S 0 (checkCancelled b) := .of_world_eq fun _ => rfl

theorem Arena.size_register_le (name : String) (a : Arena) :
    (a.register name).2.size ≤ a.size + 1 := by
  rw [register]
  split
  · exact Nat.le_succ _
  · exact Nat.le_refl _

/-- A table is dropped, created and dropped again. -/
theorem materialize_spends (hb : ListsAtMost b P S K) (name : String) (selection : Selection) :
    Spends P S 3 (materialize b name selection) := by
  have hregister : Spends P S 1 (Run.of fun w : World σ =>
      (Except.ok (ε := StoreError) (w.arena.register name).1,
        { w with arena := (w.arena.register name).2 })) := by
    refine fun w hw => ⟨hw, List.suffix_refl _, fun _ => ?_⟩
    have hsize := Arena.size_register_le name w.arena
    show w.log.length + (w.arena.register name).2.size ≤ w.log.length + w.arena.size + 1
    omega
  refine hregister.bind (m := 2) fun fresh => ?_
  split
  · exact (issue_spends hb _).bind fun _ => (issue_spends hb _).bind fun _ => .pure ()
  · exact (Spends.pure ()).mono (by omega)

/-- A drop of the clean-up was due before. -/
theorem dropTables_spends (hb : ListsAtMost b P S K) (count : Nat) (first : Option StoreError)
    {w : World σ} (hw : P w.state) :
    P (dropTables b count first w).2.state ∧ w.log <:+ (dropTables b count first w).2.log ∧
      (dropTables b count first w).2.charge = w.charge := by
  induction count generalizing first w with
  | zero => exact ⟨hw, List.suffix_refl _, rfl⟩
  | succ count ih =>
    rw [dropTables]
    cases hpop : w.arena.pop? with
    | none => exact ⟨hw, List.suffix_refl _, rfl⟩
    | some popped =>
      obtain ⟨name, arena⟩ := popped
      have hsize : w.arena.size = arena.size + 1 := by
        rw [Arena.pop?] at hpop
        split at hpop
        · cases hpop
        · next hnames =>
          cases hpop
          rw [Arena.size, hnames]
          rfl
      let dropped := ((issue b (.drop name)).within { w with arena }).2
      have hdropped : P dropped.state := hb.keeps hw
      have hcharge : dropped.charge = w.charge := by
        show w.log.length + 1 + arena.size = w.log.length + w.arena.size
        omega
      obtain ⟨hkeeps, hgrows, heq⟩ := ih (first.or _) hdropped
      exact ⟨hkeeps, (List.suffix_cons _ w.log).trans hgrows, heq.trans hcharge⟩

/-- The clean-up adds nothing to what is due. -/
theorem release_spends (hb : ListsAtMost b P S K) : Spends P S 0 (release b) := fun w hw =>
  have ⟨hkeeps, hgrows, hcharge⟩ := dropTables_spends hb w.arena.size none hw
  ⟨hkeeps, hgrows, fun _ => Nat.le_of_eq hcharge⟩

/-! ### Walks -/

mutual

/-- What the walk of an aggregation adds at most, if no histogram has more than `K` buckets. -/
def Aggregation.cost (K : Nat) : Aggregation → Nat
  | .metric _ _ => 1
  | .dateHistogram _ _ _ children =>
    if children.isEmpty then 1 else 4 + K * (4 + Aggregations.cost K children)

/-- What the walk of siblings adds at most. -/
def Aggregations.cost (K : Nat) : List (String × Aggregation) → Nat
  | [] => 0
  | (_, a) :: rest => Aggregation.cost K a + Aggregations.cost K rest

end

theorem runMetric_spends (hb : ListsAtMost b P S K) (m : Metric) (field : String) :
    Spends P S 1 (runMetric b m field) :=
  ((Spends.read _).bind fun _ => (query_spends hb _).bind fun _ => .pure _).mono (by omega)

theorem groupedBuckets_spends (hb : ListsAtMost b P S K) (key : BucketKey)
    (format : Option DateFormat) : Spends P S 1 (groupedBuckets b key format) :=
  ((Spends.read _).bind fun _ => (query_spends hb _).bind fun _ => .pure _).mono (by omega)

theorem runBucket_spends (hb : ListsAtMost b P S K) (format : Option DateFormat) (bucketed : String)
    {children : Run σ ExecutionError (List (String × Json))} (hchildren : Spends P S n children)
    (key : Int64) : Spends P S (4 + n) (runBucket b format bucketed children key) := by
  refine Spends.mono (n := 0 + (3 + (1 + (n + 0)))) ?_ (by omega)
  refine checkCancelled_spends.bind fun _ => ?_
  refine ((materialize_spends hb _ _).mapError _).bind fun _ => ?_
  refine (query_spends hb _).bind fun rows => ?_
  exact (hchildren.withScope _).bind fun results => .pure _

/-- What follows the table of the buckets: they are listed, and then computed one by one. -/
theorem buckets_spends (hb : ListsAtMost b P S K) (format : Option DateFormat) (bucketed : String)
    {children : Run σ ExecutionError (List (String × Json))} (hchildren : Spends P S n children) :
    Spends P S (1 + K * (4 + n)) (query b (.buckets bucketed) >>= fun rows : List Row =>
      (rows.filterMap fun row => row.head?.bind Value.toInt64?).mapM
        (runBucket b format bucketed children)) := by
  intro w hw
  refine (query_spends hb (.buckets bucketed) w hw).bind fun rows after hrows hafter => ?_
  let keys := rows.filterMap fun row => row.head?.bind Value.toInt64?
  obtain ⟨hkeeps, hgrows, hcharge⟩ :=
    Spends.mapM (runBucket_spends hb format bucketed hchildren) keys after hafter
  refine ⟨hkeeps, hgrows, fun hS => Nat.le_trans (hcharge hS) ?_⟩
  -- the list of the buckets is in the log, so there are at most `K` of them
  obtain ⟨hanswer, rfl⟩ := Prod.mk.inj hrows
  have hlisted : rows.length ≤ K := by
    refine hb.length_le hw (hS ⟨.buckets bucketed, _⟩ (hgrows.subset List.mem_cons_self)) ?_
    exact Steps.mapError_eq_ok.mp hanswer
  have hkeys : keys.length ≤ rows.length := List.length_filterMap_le _ _
  exact Nat.add_le_add_left (Nat.mul_le_mul_right _ (Nat.le_trans hkeys hlisted)) _

theorem materializedBuckets_spends (hb : ListsAtMost b P S K) (c : SearchContext) (key : BucketKey)
    (format : Option DateFormat) {children : Run σ ExecutionError (List (String × Json))}
    (hchildren : Spends P S n children) :
    Spends P S (4 + K * (4 + n)) (materializedBuckets b c key format children) := by
  refine Spends.mono (n := 0 + (3 + (1 + K * (4 + n)))) ?_ (by omega)
  refine (Spends.read _).bind fun scope => ?_
  refine ((materialize_spends hb _ _).mapError _).bind fun _ => ?_
  exact buckets_spends hb format _ hchildren

mutual

theorem Aggregation.run_spends (hb : ListsAtMost b P S K) (c : SearchContext) :
    ∀ a : Aggregation, Spends P S (a.cost K) (Aggregation.run b c a)
  | .metric m field => by
    rw [Aggregation.run, Aggregation.cost]
    exact (checkCancelled_spends.bind fun _ => runMetric_spends hb m field).mono (by omega)
  | .dateHistogram field interval format children => by
    have hchildren := Aggregations.run_spends hb c children
    rw [Aggregation.run, Aggregation.cost]
    cases hempty : children.isEmpty with
    | true =>
      simp only [if_true]
      exact (checkCancelled_spends.bind fun _ => (Spends.lift _).bind fun key =>
        (groupedBuckets_spends hb key format).bind fun buckets => .pure _).mono (by omega)
    | false =>
      simp only [Bool.false_eq_true, if_false]
      exact (checkCancelled_spends.bind fun _ => (Spends.lift _).bind fun key =>
        (materializedBuckets_spends hb c key format hchildren).bind fun buckets => .pure _).mono
          (by omega)

/-- **A walk adds at most its cost.** -/
theorem Aggregations.run_spends (hb : ListsAtMost b P S K) (c : SearchContext) :
    ∀ siblings : List (String × Aggregation),
      Spends P S (Aggregations.cost K siblings) (Aggregations.run b c siblings)
  | [] => by
    rw [Aggregations.run, Aggregations.cost]
    exact .pure []
  | (name, a) :: rest => by
    rw [Aggregations.run, Aggregations.cost]
    refine (Aggregation.run_spends hb c a).bind fun result => ?_
    exact (Aggregations.run_spends hb c rest).bind fun results => .pure _

end

theorem Aggregations.execute_spends (hb : ListsAtMost b P S K) (c : SearchContext)
    (siblings : Aggregations) :
    Spends P S (Aggregations.cost K siblings) (Aggregations.execute b c siblings) :=
  (checkCancelled_spends.bind fun _ => Aggregations.run_spends hb c siblings).mono (by omega)

/-! ### Whole searches -/

/-- What a search adds at most: its walk, the count of the hits and the page. -/
def SearchCall.cost (options : RequestOptions) (K : Nat) (call : SearchCall) : Nat :=
  match readRequest options call.body with
  | .ok r => Aggregations.cost K r.aggregations + 2
  | .error _ => 0

theorem runRequest_spends (hb : ListsAtMost b P S K) (c : SearchContext) (r : Request) :
    Spends P S (Aggregations.cost K r.aggregations) (runRequest b c r) := by
  refine Spends.mono (n := 0 + (Aggregations.cost K r.aggregations + (0 + (0 + (0 + 0))))) ?_
    (by omega)
  refine (Spends.lift _).bind fun condition => ?_
  refine ((Aggregations.execute_spends hb c r.aggregations).withScope _).capture.bind fun walk => ?_
  refine (release_spends hb).capture.bind fun released => ?_
  exact (Spends.lift _).bind fun aggregations => (Spends.lift _).bind fun _ => .pure _

theorem fetchHits_spends (hb : ListsAtMost b P S K) (c : SearchContext)
    (condition : Option Condition) (sort : List SortClause) (size offset : Int64) :
    Spends P S 2 (fetchHits b c condition sort size offset) := by
  refine (issue_spends hb _).bind (m := 1) fun rows => ?_
  split
  · exact (Spends.pure _).mono (by omega)
  · exact (issue_spends hb _).bind fun rows => (Spends.lift _).bind fun hits => .pure _

/-- **A search adds at most its cost.** -/
theorem search_spends (hb : ListsAtMost b P S K) (mappings : Mappings) (options : RequestOptions)
    (call : SearchCall) :
    Spends P S (call.cost options K) (search b mappings options call) := by
  refine Spends.lift_bind fun r hr => ?_
  have hresolve : Spends P S 0 (resolveTargets b call.indices) :=
    .of_world_eq (resolveTargets_world call.indices)
  have hcost : call.cost options K = Aggregations.cost K r.aggregations + 2 := by
    rw [SearchCall.cost, hr]
  refine Spends.mono (n := 0 + (Aggregations.cost K r.aggregations + (0 + (2 + 0)))) ?_ (by omega)
  refine hresolve.bind fun targets => ?_
  refine ((runRequest_spends hb _ r).withScope _).bind fun found => ?_
  refine checkCancelled_spends.bind fun _ => ?_
  exact ((fetchHits_spends hb _ _ _ _ _).mapError _).bind fun hits => .pure _

end Searches

/-! ### Searches that share a database -/

/-- How many buckets a table has. -/
def Table.bucketCount (t : Table) : Nat :=
  match t.rows with
  | .ok rows => (bucketKeys rows).length
  | .error _ => 0

namespace Corpus

/-- The greatest number of buckets that a table has of those that a search asks for. -/
def mostBuckets (v : Corpus) (call : SearchCall) : Nat :=
  (v.tables call).foldr (fun t most => max t.bucketCount most) 0

/-- How many statements a search issues at most. -/
def allowance (v : Corpus) (call : SearchCall) : Nat := call.cost v.options (v.mostBuckets call)

theorem bucketCount_le_mostBuckets {v : Corpus} {call : SearchCall} {t : Table}
    (ht : t ∈ v.tables call) : t.bucketCount ≤ v.mostBuckets call := by
  rw [mostBuckets]
  generalize v.tables call = tables at ht
  induction tables with
  | nil => cases ht
  | cons u tables ih =>
    rw [List.foldr_cons]
    rcases List.mem_cons.mp ht with rfl | ht
    · exact Nat.le_max_left _ _
    · exact Nat.le_trans (ih ht) (Nat.le_max_right _ _)

end Corpus

/-- **Whatever a search meets, it is told of no more buckets than the tables have** that it asks
for. -/
theorem Encounters.listsAtMost {atRest : Database} {tables : Table → Prop}
    {indices : List (String × List Document)} {K : Nat} (hrest : atRest.Fits tables indices)
    (hK : ∀ t, tables t → t.bucketCount ≤ K) :
    ListsAtMost (backend atRest) (·.Fits tables indices True) (·.IsKnown tables indices) K where
  keeps := fun he => (he.next hrest).2
  length_le := fun {name e rows} he hknown hanswer => by
    obtain ⟨t, ht, rfl⟩ : ∃ t, tables t ∧ t.name = name := hknown name rfl
    have hread : ((e.next atRest).database.answer (.buckets t.name)).mapError .evaluation =
        Except.ok (ε := StoreError) rows := by
      rw [← hanswer]
      show _ = (Session.run (.buckets t.name) (e.next atRest)).1
      rw [Session.run_of_read rfl]
    rw [Steps.mapError_eq_ok] at hread
    rcases (he.next hrest).1.temporary t ht with hmissing | ⟨u, rows', hu, -, hrows, hthere⟩
    · obtain ⟨cause, hcause⟩ := Database.answer_of_missing (s := .buckets t.name) rfl rfl hmissing
      rw [hcause] at hread
      cases hread
    · rw [Database.answer_buckets hthere] at hread
      have hcount := hK u hu
      rw [Table.bucketCount, hrows] at hcount
      rw [← Except.ok.inj hread, List.length_map]
      exact hcount

/-- **A search that shares its database stays within its allowance.** -/
theorem Corpus.length_log_encounter_le {v : Corpus} {call : SearchCall} {e : Encounters}
    (htables : Coherent (· ∈ v.tables call))
    (hrest : v.database.Fits (· ∈ v.tables call) v.database.indices)
    (he : e.Fits (· ∈ v.tables call) v.database.indices True) :
    (v.encounter call e).2.log.length ≤ v.allowance call := by
  have hlists := Encounters.listsAtMost hrest fun t ht => bucketCount_le_mostBuckets ht
  have hspends := search_spends hlists v.mappings v.options call (World.start e) he
  have hknown := (search_shared htables hrest (fun _ ht => ht) he).2
  have hcharge : (v.encounter call e).2.charge ≤ 0 + v.allowance call := hspends.charge hknown
  calc (v.encounter call e).2.log.length
      ≤ (v.encounter call e).2.charge := Nat.le_add_right _ _
    _ ≤ v.allowance call := by omega

end DocSearch
