import DocSearch.Engine.Search
import DocSearch.Proofs.Engine.Run

/-!
# What a walk keeps

A walk over aggregations does only a few things to the world: it issues a statement
that reads from the source in scope or from a temporary table, it materializes a
temporary table, and it enters a temporary table as its scope.  A property that these
steps keep is kept by every walk, however deep the histograms are nested and wherever
the walk fails.  In the same way a property of computations, whatever it says, is one of
every walk if the steps of walks have it and sequences and scopes pass it on.

## Main definitions

* `WalkLaw` — the steps of a walk have a property of computations, and it is passed on.
* `WalkRead`, `WalkFill` — the statements and the selections of a walk.
* `WalkInvariant`, `DropsKeep` — the steps of a walk and the drops behind it keep a
  property.
* `walkEnd` — the world at the end of the walk of a request.

## Main results

* `WalkLaw.aggregations` — walks have what their steps have.
* `Aggregation.run_keeps`, `Aggregations.run_keeps` — a walk keeps what its steps keep.
* `walkEnd_keeps` — the walk of a request does, up to its end.
* `runRequest_keeps` — a whole request does, if the drops of the clean-up do.
-/

namespace DocSearch

variable {σ : Type}

/-! ### Laws of walks -/

/-- A property of computations that the steps of a walk have, and that sequences and scopes
have if their parts have it. -/
structure WalkLaw (b : Backend σ) (c : SearchContext)
    (Q : ∀ {α : Type}, Run σ ExecutionError α → Prop) : Prop where
  pure : ∀ {α : Type} (a : α), Q (Pure.pure a : Run σ ExecutionError α)
  bind : ∀ {α β : Type} {x : Run σ ExecutionError α} {f : α → Run σ ExecutionError β},
    Q x → (∀ a, Q (f a)) → Q (x >>= f)
  enter : ∀ {α : Type} {r : Run σ ExecutionError α} (scope : Source), Q r → Q (withScope scope r)
  /-- Looking at the source in scope. -/
  scope : Q (Run.read (·.scope) : Run σ ExecutionError Source)
  /-- Looking at the flag. -/
  check : Q (checkCancelled b)
  /-- Finding out how the field of a histogram is read. -/
  key : ∀ (field : String) (interval : Interval),
    Q (Run.lift (bucketKey c field interval) : Run σ ExecutionError BucketKey)
  /-- Statements that read. -/
  read : ∀ s : Statement, Q (query b s)
  /-- Temporary tables. -/
  fill : ∀ (name : String) (selection : Selection),
    Q ((materialize b name selection).mapError ExecutionError.aggregation)

namespace WalkLaw

variable {b : Backend σ} {c : SearchContext} {Q : ∀ {α : Type}, Run σ ExecutionError α → Prop}

theorem mapM {α β : Type} (law : WalkLaw b c Q) {f : α → Run σ ExecutionError β}
    (hf : ∀ a, Q (f a)) (as : List α) : Q (as.mapM f) := by
  induction as with
  | nil => exact law.pure []
  | cons a as ih =>
    rw [List.mapM_cons]
    exact law.bind (hf a) fun b => law.bind ih fun bs => law.pure (b :: bs)

theorem metric (law : WalkLaw b c Q) (m : Metric) (field : String) : Q (runMetric b m field) :=
  law.bind law.scope fun _ => law.bind (law.read _) fun _ => law.pure _

theorem grouped (law : WalkLaw b c Q) (key : BucketKey) (format : Option DateFormat) :
    Q (groupedBuckets b key format) :=
  law.bind law.scope fun _ => law.bind (law.read _) fun _ => law.pure _

theorem bucket (law : WalkLaw b c Q) (format : Option DateFormat) (bucketed : String)
    {children : Run σ ExecutionError (List (String × Json))} (hchildren : Q children)
    (key : Int64) : Q (runBucket b format bucketed children key) := by
  refine law.bind law.check fun _ => ?_
  refine law.bind (law.fill _ _) fun _ => ?_
  refine law.bind (law.read _) fun rows => ?_
  exact law.bind (law.enter _ hchildren) fun results => law.pure _

/-- What follows the table of the buckets: they are listed, and then computed one by one. -/
theorem buckets (law : WalkLaw b c Q) (format : Option DateFormat) (bucketed : String)
    {children : Run σ ExecutionError (List (String × Json))} (hchildren : Q children) :
    Q (query b (.buckets bucketed) >>= fun rows : List Row =>
      (rows.filterMap fun row => row.head?.bind Sql.Value.toInt64?).mapM
        (runBucket b format bucketed children)) :=
  law.bind (law.read _) fun _ => law.mapM (law.bucket format bucketed hchildren) _

theorem materialized (law : WalkLaw b c Q) (key : BucketKey) (format : Option DateFormat)
    {children : Run σ ExecutionError (List (String × Json))} (hchildren : Q children) :
    Q (materializedBuckets b c key format children) := by
  refine law.bind law.scope fun scope => ?_
  exact law.bind (law.fill _ _) fun _ => law.buckets format _ hchildren

mutual

theorem aggregation (law : WalkLaw b c Q) : ∀ a : Aggregation, Q (Aggregation.run b c a)
  | .metric m field => by
    rw [Aggregation.run]
    exact law.bind law.check fun _ => law.metric m field
  | .dateHistogram field interval format children => by
    have hchildren := law.aggregations children
    rw [Aggregation.run]
    refine law.bind law.check fun _ => ?_
    refine law.bind (law.key field interval) fun key => ?_
    split
    · exact law.bind (law.grouped key format) fun buckets => law.pure _
    · exact law.bind (law.materialized key format hchildren) fun buckets => law.pure _

/-- **A walk has what its steps have**, if sequences and scopes pass it on. -/
theorem aggregations (law : WalkLaw b c Q) : ∀ siblings : List (String × Aggregation),
    Q (Aggregations.run b c siblings)
  | [] => by
    rw [Aggregations.run]
    exact law.pure _
  | (name, a) :: rest => by
    rw [Aggregations.run]
    refine law.bind (law.aggregation a) fun result => ?_
    exact law.bind (law.aggregations rest) fun results => law.pure _

end

theorem execute (law : WalkLaw b c Q) (siblings : Aggregations) :
    Q (Aggregations.execute b c siblings) :=
  law.bind law.check fun _ => law.aggregations siblings

end WalkLaw

/-! ### Steps of a walk -/

/-- The statements that a walk issues to read, given the source in scope. -/
inductive WalkRead (scope : Source) : Statement → Prop where
  /-- A metric over the scope. -/
  | metric (m : Metric) (field : String) : WalkRead scope (.metric m field scope)
  /-- A histogram over the scope. -/
  | histogram (key : BucketKey) : WalkRead scope (.histogram key scope)
  /-- The buckets of a temporary table. -/
  | buckets (parts : List String) : WalkRead scope (.buckets (tempTableName parts))
  /-- The size of a temporary table. -/
  | count (parts : List String) : WalkRead scope (.count (.table (tempTableName parts)))

/-- The selections that fill the temporary tables of a walk, given the source in scope. -/
inductive WalkFill (scope : Source) : Selection → Prop where
  /-- The rows of the scope with their buckets. -/
  | bucketed (key : BucketKey) : WalkFill scope (.bucketed key scope)
  /-- The rows of one bucket. -/
  | bucket (parts : List String) (key : Int64) : WalkFill scope (.bucket (tempTableName parts) key)

/-- A property of worlds that the steps of a walk keep. -/
structure WalkInvariant (b : Backend σ) (I : World σ → Prop) : Prop where
  /-- Statements that read keep it. -/
  read : ∀ {w : World σ} {s : Statement}, WalkRead w.scope s → I w → I ((issue b s).within w).2
  /-- Temporary tables keep it. -/
  fill : ∀ {w : World σ} {selection : Selection} (parts : List String),
    WalkFill w.scope selection → I w →
      I ((materialize b (tempTableName parts) selection).within w).2
  /-- It holds in the scope of a temporary table. -/
  enter : ∀ {w : World σ} (parts : List String),
    I w → I { w with scope := .table (tempTableName parts) }
  /-- It holds when a scope is left. -/
  leave : ∀ {w after : World σ}, I w → I after → I { after with scope := w.scope }

/-- The drops of the clean-up keep a property. -/
def DropsKeep (b : Backend σ) (I : World σ → Prop) : Prop :=
  ∀ {w : World σ} {name : String} {arena : Arena}, w.arena.pop? = some (name, arena) →
    I w → I ((issue b (.drop name)).within { w with arena }).2

/-! ### Walks -/

section Walks

variable {b : Backend σ} {c : SearchContext} {I : World σ → Prop}

open Run

theorem query_keepsAt (hI : WalkInvariant b I) {w : World σ} {s : Statement}
    (hs : WalkRead w.scope s) : KeepsAt I (query b s) w :=
  KeepsAt.mapError ⟨rfl, hI.read hs⟩

theorem materialize_keepsAt (hI : WalkInvariant b I) {w : World σ} {selection : Selection}
    (parts : List String) (hs : WalkFill w.scope selection) :
    KeepsAt I ((materialize b (tempTableName parts) selection).mapError ExecutionError.aggregation)
      w := by
  refine KeepsAt.mapError ⟨?_, hI.fill parts hs⟩
  rcases materialize_cases b (tempTableName parts) selection w with
    ⟨-, h⟩ | ⟨-, _, _, h⟩ | ⟨-, _, _, h⟩ <;> rw [h] <;> rfl

theorem runMetric_keeps (hI : WalkInvariant b I) (m : Metric) (field : String) :
    Keeps I (runMetric b m field) := by
  intro w
  refine KeepsAt.read_bind ?_
  exact (query_keepsAt hI (.metric m field)).bind fun _ after _ _ => Keeps.pure _ after

theorem groupedBuckets_keeps (hI : WalkInvariant b I) (key : BucketKey)
    (format : Option DateFormat) :
    Keeps I (groupedBuckets b key format) := by
  intro w
  refine KeepsAt.read_bind ?_
  exact (query_keepsAt hI (.histogram key)).bind fun _ after _ _ => Keeps.pure _ after

theorem checkCancelled_keeps : Keeps I (checkCancelled b) := by
  intro w
  refine .of_world_eq ?_
  rfl

theorem runBucket_keeps (hI : WalkInvariant b I) (format : Option DateFormat) (parts : List String)
    {children : Run σ ExecutionError (List (String × Json))} (hchildren : Keeps I children)
    (key : Int64) : Keeps I (runBucket b format (tempTableName parts) children key) := by
  refine Keeps.bind checkCancelled_keeps fun _ => ?_
  refine Keeps.bind (fun w => materialize_keepsAt hI _ (.bucket parts key)) fun _ => ?_
  refine Keeps.bind (fun w => query_keepsAt hI (.count _)) fun rows => ?_
  refine Keeps.bind ?_ fun results => Keeps.pure _
  exact fun w => KeepsAt.withScope (hI.enter _) hchildren fun after => hI.leave

theorem materializedBuckets_keeps (hI : WalkInvariant b I) (key : BucketKey)
    (format : Option DateFormat) {children : Run σ ExecutionError (List (String × Json))}
    (hchildren : Keeps I children) :
    Keeps I (materializedBuckets b c key format children) := by
  intro w
  refine KeepsAt.read_bind ?_
  refine (materialize_keepsAt hI _ (.bucketed key)).bind fun _ after _ _ => ?_
  refine Keeps.bind (fun w => query_keepsAt hI (.buckets _)) (fun rows => ?_) after
  exact Keeps.mapM (runBucket_keeps hI format _ hchildren)

mutual

/-- **A walk keeps what its steps keep**, wherever it ends. -/
theorem Aggregation.run_keeps (hI : WalkInvariant b I) : ∀ a : Aggregation,
    Keeps I (Aggregation.run b c a)
  | .metric m field => by
    rw [Aggregation.run]
    exact Keeps.bind checkCancelled_keeps fun _ => runMetric_keeps hI m field
  | .dateHistogram field interval format children => by
    have hchildren := Aggregations.run_keeps hI children
    rw [Aggregation.run]
    refine Keeps.bind checkCancelled_keeps fun _ => ?_
    refine Keeps.bind (Keeps.lift _) fun key => ?_
    split
    · exact Keeps.bind (groupedBuckets_keeps hI key format) fun buckets => Keeps.pure _
    · exact Keeps.bind (materializedBuckets_keeps hI key format hchildren) fun buckets =>
        Keeps.pure _

theorem Aggregations.run_keeps (hI : WalkInvariant b I) : ∀ siblings : List (String × Aggregation),
    Keeps I (Aggregations.run b c siblings)
  | [] => by
    rw [Aggregations.run]
    exact Keeps.pure _
  | (name, a) :: rest => by
    rw [Aggregations.run]
    refine Keeps.bind (Aggregation.run_keeps hI a) fun result => ?_
    exact Keeps.bind (Aggregations.run_keeps hI rest) fun results => Keeps.pure _

end

theorem Aggregations.execute_keeps (hI : WalkInvariant b I) (siblings : Aggregations) :
    Keeps I (Aggregations.execute b c siblings) :=
  Keeps.bind checkCancelled_keeps fun _ => Aggregations.run_keeps hI siblings

/-- Siblings, given what the first one and the others come to. -/
theorem Aggregations.within_execute_cons {w between after : World σ} {name : String}
    {a : Aggregation} {rest : List (String × Aggregation)} {result : Json}
    {others : Except ExecutionError (List (String × Json))}
    (hstart : b.cancelled w.state = false)
    (hfirst : (a.run b c).within w = (.ok result, between))
    (hrest : (Aggregations.run b c rest).within between = (others, after)) :
    (Aggregations.execute b c ((name, a) :: rest)).within w =
      (others.map ((name, result) :: ·), after) := by
  have hcheck : (checkCancelled b).within w = (.ok (), w) := by
    rw [checkCancelled, within_of, hstart]
    rfl
  rw [Aggregations.execute, within_bind, hcheck, Aggregations.run]
  simp only
  rw [within_bind, hfirst]
  simp only
  rw [within_bind, hrest]
  cases others <;> rfl

/-- The world at the end of the walk of a request, before the clean-up. -/
def walkEnd (b : Backend σ) (c : SearchContext) (r : Request) (w : World σ) : World σ :=
  match r.predicate.compile with
  | .ok condition =>
    ((withScope (.documents c.targets c.types condition)
      (Aggregations.execute b c r.aggregations)).within w).2
  | .error _ => w

theorem walkEnd_of_execute {r : Request} {w after : World σ} {condition : Option Condition}
    {walked : Except ExecutionError (List (String × Json))}
    (hr : r.predicate.compile = .ok condition)
    (hwalk : (Aggregations.execute b c r.aggregations).within
      { w with scope := .documents c.targets c.types condition } = (walked, after)) :
    walkEnd b c r w = { after with scope := w.scope } := by
  rw [walkEnd, hr]
  simp only [within_withScope, hwalk]

/-- **The walk of a request keeps what its steps keep**, up to its end. -/
theorem walkEnd_keeps (hI : WalkInvariant b I) {r : Request} {w : World σ}
    (henter : ∀ condition, r.predicate.compile = .ok condition →
      I w → I { w with scope := .documents c.targets c.types condition }) (hw : I w) :
    (walkEnd b c r w).scope = w.scope ∧ I (walkEnd b c r w) := by
  rw [walkEnd]
  cases h : r.predicate.compile with
  | error e => exact ⟨rfl, hw⟩
  | ok condition =>
    have hkeeps : KeepsAt I (withScope (.documents c.targets c.types condition)
        (Aggregations.execute b c r.aggregations)) w :=
      KeepsAt.withScope (henter condition h) (Aggregations.execute_keeps hI r.aggregations)
        fun after => hI.leave
    exact ⟨hkeeps.1, hkeeps.2 hw⟩

/-! ### The clean-up -/

theorem dropTables_keeps (hdrop : DropsKeep b I) (count : Nat) (first : Option StoreError)
    (w : World σ) :
    (dropTables b count first w).2.scope = w.scope ∧ (I w → I (dropTables b count first w).2) := by
  induction count generalizing first w with
  | zero => exact ⟨rfl, id⟩
  | succ count ih =>
    rw [dropTables]
    cases h : w.arena.pop? with
    | none => exact ⟨rfl, id⟩
    | some popped =>
      obtain ⟨name, arena⟩ := popped
      obtain ⟨hscope, hkeep⟩ := ih _ ((issue b (.drop name)).within { w with arena }).2
      exact ⟨hscope, fun hw => hkeep (hdrop h hw)⟩

/-- The clean-up keeps what its drops keep. -/
theorem release_keeps (hdrop : DropsKeep b I) : Keeps I (release b) :=
  fun w => dropTables_keeps hdrop w.arena.size none w

/-- A clean-up of one table. -/
theorem within_release_singleton {w : World σ} {name : String}
    (hnames : w.arena.names = [name]) :
    let dropping := (issue b (.drop name)).within
      { w with arena := ⟨[], w.arena.registered.erase name⟩ }
    (release b).within w = (dropping.1.map fun _ => (), dropping.2) := by
  intro dropping
  have hpop : w.arena.pop? = some (name, ⟨[], w.arena.registered.erase name⟩) := by
    rw [Arena.pop?, hnames]
  have hdrops : dropTables b w.arena.size none w = (failureOf dropping.1, dropping.2) := by
    rw [Arena.size, hnames, List.length_singleton, dropTables, hpop]
    exact Prod.ext (Option.none_or) rfl
  rw [release, within_of, hdrops]
  cases dropping.1 <;> rfl

/-- **A request keeps what the steps of its walk and the drops keep.** -/
theorem runRequest_keeps (hI : WalkInvariant b I) (hdrop : DropsKeep b I) {r : Request}
    (henter : ∀ (w : World σ) (condition : Option Condition),
      I w → I { w with scope := .documents c.targets c.types condition }) :
    Keeps I (runRequest b c r) := by
  rw [runRequest]
  refine Keeps.bind (Keeps.lift _) fun condition => ?_
  have hwalk : Keeps I (withScope (.documents c.targets c.types condition)
      (Aggregations.execute b c r.aggregations)) := by
    intro w
    exact KeepsAt.withScope (henter w condition) (Aggregations.execute_keeps hI r.aggregations)
      fun after => hI.leave
  refine Keeps.bind (Keeps.capture hwalk) fun walk => ?_
  refine Keeps.bind (Keeps.capture (release_keeps hdrop)) fun released => ?_
  refine Keeps.bind (Keeps.lift _) fun aggregations => ?_
  exact Keeps.bind (Keeps.lift _) fun _ => Keeps.pure _

end Walks

end DocSearch
