import DocSearch.Proofs.Engine.Cleanup
import DocSearch.Proofs.Engine.Reference

/-!
# Walks over databases that serve them

A database serves a walk if the temporary tables that the walk has created hold what they
were filled with whenever they are read.  Whether it does is a matter of who else uses the
database.  A walk that is served comes to the value of its aggregation; a walk that is
served with excuses may fail with one of them instead.

## Main definitions

* `Invariant` — a property of worlds, and what is left of it after a failure.
* `Run.Gives` — a computation comes to some result, or fails with an excuse.
* `Database.Keeps`, `Database.Shows` — a database holds what is known of a table, and of the
  table that is read.
* `Serves` — a database serves the walks that ask for some tables.
* `Origin.Holds` — a place can be read in a world.

## Main results

* `Run.Gives.bind`, `Run.Gives.mapM` — sequences come to what their parts come to.
* `Aggregation.run_gives`, `Aggregations.run_gives` — a walk comes to the value.
-/

namespace DocSearch

/-! ### What a computation comes to -/

/-- A property of the worlds of a walk.  It holds as long as nothing fails, and some of it
survives a failure.  What is in scope does not matter to it. -/
structure Invariant (σ : Type) where
  /-- The property. -/
  Holds : World σ → Prop
  /-- What is left of it after a failure. -/
  Survives : World σ → Prop
  survives : ∀ {w : World σ}, Holds w → Survives w
  holds_scope : ∀ {w : World σ} (scope : Source), Holds w → Holds { w with scope }
  survives_scope : ∀ {w : World σ} (scope : Source), Survives w → Survives { w with scope }

namespace Run

variable {σ α β : Type} {I : Invariant σ} {Excuse : ExecutionError → Prop} {w : World σ}

/-- From a world, a computation comes to a result or fails with an excuse.  Unless it
fails, the invariant holds afterwards, the source that is read is the same, and no name is
lost. -/
structure Gives (I : Invariant σ) (Excuse : ExecutionError → Prop) (w : World σ)
    (r : Run σ ExecutionError α) (x : Except ExecutionError α) : Prop where
  result : (r.within w).1 = x ∨ ∃ e, (r.within w).1 = .error e ∧ Excuse e
  keeps : ∀ a, (r.within w).1 = .ok a → I.Holds (r.within w).2 ∧
    (r.within w).2.scope = w.scope ∧ w.arena.names ⊆ (r.within w).2.arena.names
  survives : I.Survives (r.within w).2

theorem Gives.of_world_eq {r : Run σ ExecutionError α} {x : Except ExecutionError α}
    (hresult : (r.within w).1 = x) (hworld : (r.within w).2 = w) (hw : I.Holds w) :
    Gives I Excuse w r x := by
  refine ⟨.inl hresult, fun a _ => ?_, ?_⟩
  · rw [hworld]
    exact ⟨hw, rfl, List.Subset.refl _⟩
  · rw [hworld]
    exact I.survives hw

theorem Gives.pure (a : α) (hw : I.Holds w) : Gives I Excuse w (Pure.pure a) (.ok a) :=
  .of_world_eq rfl rfl hw

theorem Gives.lift (x : Except ExecutionError α) (hw : I.Holds w) :
    Gives I Excuse w (Run.lift x) x :=
  .of_world_eq rfl rfl hw

/-- What comes second is reached only if what comes first comes to its result. -/
theorem Gives.bind {r : Run σ ExecutionError α} {f : α → Run σ ExecutionError β}
    {x : Except ExecutionError α} {g : α → Except ExecutionError β} (hr : Gives I Excuse w r x)
    (hf : ∀ a after, x = .ok a → r.within w = (.ok a, after) → I.Holds after →
      after.scope = w.scope → w.arena.names ⊆ after.arena.names →
      Gives I Excuse after (f a) (g a)) :
    Gives I Excuse w (r >>= f) (x >>= g) := by
  obtain ⟨hresult, hkeeps, hsurvives⟩ := hr
  cases h : r.within w with
  | mk result after =>
    rw [h] at hresult hkeeps hsurvives
    cases result with
    | error e =>
      have hbind : (r >>= f).within w = (.error e, after) := by rw [within_bind, h]
      refine ⟨?_, fun a ha => ?_, ?_⟩
      · rw [hbind]
        rcases hresult with hx | ⟨e', he', hexcuse⟩
        · left
          rw [← hx]
          rfl
        · exact .inr ⟨e', congrArg Except.error (Except.error.inj he'), hexcuse⟩
      · rw [hbind] at ha
        cases ha
      · rw [hbind]
        exact hsurvives
    | ok a =>
      have hbind : (r >>= f).within w = (f a).within after := by rw [within_bind, h]
      -- a result that is no error is not excused, so it is the one that was foreseen
      have hx : x = .ok a := by
        rcases hresult with hx | ⟨e, he, -⟩
        · exact hx.symm
        · cases he
      obtain ⟨hI, hscope, hnames⟩ := hkeeps a rfl
      obtain ⟨hresult', hkeeps', hsurvives'⟩ := hf a after hx h hI hscope hnames
      refine ⟨?_, fun b hb => ?_, ?_⟩
      · rw [hbind, hx]
        exact hresult'
      · rw [hbind] at hb ⊢
        obtain ⟨hI', hscope', hnames'⟩ := hkeeps' b hb
        exact ⟨hI', hscope'.trans hscope, List.Subset.trans hnames hnames'⟩
      · rw [hbind]
        exact hsurvives'

/-- What comes first is known to succeed, unless there is an excuse. -/
theorem Gives.bind_ok {r : Run σ ExecutionError α} {f : α → Run σ ExecutionError β} {a : α}
    {y : Except ExecutionError β} (hr : Gives I Excuse w r (.ok a))
    (hf : ∀ after, r.within w = (.ok a, after) → I.Holds after → after.scope = w.scope →
      w.arena.names ⊆ after.arena.names → Gives I Excuse after (f a) y) :
    Gives I Excuse w (r >>= f) y := by
  refine hr.bind (g := fun _ => y) fun a' after ha hwithin => ?_
  cases ha
  exact hf after hwithin

/-- What comes first is known to fail. -/
theorem Gives.bind_error {r : Run σ ExecutionError α} {f : α → Run σ ExecutionError β}
    {e : ExecutionError} (hr : Gives I Excuse w r (.error e)) :
    Gives I Excuse w (r >>= f) (.error e) :=
  hr.bind (g := fun _ => .error e) fun _ _ h => nomatch h

theorem Gives.read_bind {g : World σ → α} {f : α → Run σ ExecutionError β}
    {x : Except ExecutionError β} (hf : Gives I Excuse w (f (g w)) x) :
    Gives I Excuse w (Run.read g >>= f) x := by
  have hbind : (Run.read g >>= f).within w = (f (g w)).within w := by
    rw [within_bind, within_read]
  obtain ⟨hresult, hkeeps, hsurvives⟩ := hf
  rw [← hbind] at hresult hkeeps hsurvives
  exact ⟨hresult, hkeeps, hsurvives⟩

/-- The same step for each of a list, in worlds in which nothing has been lost. -/
theorem Gives.mapM {f : α → Run σ ExecutionError β} {g : α → Except ExecutionError β}
    {as : List α} (hw : I.Holds w)
    (hf : ∀ a ∈ as, ∀ after : World σ, I.Holds after → after.scope = w.scope →
      w.arena.names ⊆ after.arena.names → Gives I Excuse after (f a) (g a)) :
    Gives I Excuse w (as.mapM f) (as.mapM g) := by
  induction as generalizing w with
  | nil => exact .pure [] hw
  | cons a as ih =>
    rw [List.mapM_cons, List.mapM_cons]
    refine (hf a List.mem_cons_self w hw rfl (List.Subset.refl _)).bind ?_
    intro b after _ _ hI hscope hnames
    refine (ih hI fun a' ha' later hlater hscope' hnames' => ?_).bind ?_
    · exact hf a' (List.mem_cons_of_mem _ ha') later hlater (hscope'.trans hscope)
        (List.Subset.trans hnames hnames')
    · intro bs later _ _ hI' _ _
      exact .pure _ hI'

/-- A scope is left with the source with which it was entered. -/
theorem Gives.withScope {r : Run σ ExecutionError α} {x : Except ExecutionError α}
    {scope : Source} (hr : Gives I Excuse { w with scope } r x) :
    Gives I Excuse w (DocSearch.withScope scope r) x := by
  obtain ⟨hresult, hkeeps, hsurvives⟩ := hr
  refine ⟨hresult, fun a ha => ?_, I.survives_scope _ hsurvives⟩
  obtain ⟨hafter, -, hnames⟩ := hkeeps a ha
  exact ⟨I.holds_scope _ hafter, rfl, hnames⟩

end Run

/-! ### Databases that serve -/

/-- A temporary table is there and holds what is known of it. -/
def Database.Keeps (tables : Table → Prop) (db : Database) (name : String) : Prop :=
  ∃ t rows, tables t ∧ t.name = name ∧ t.rows = .ok rows ∧ db.temporaryTable? name = some rows

/-- A database has the documents of the indices, and the temporary table that is read
holds what is known of it. -/
structure Database.Shows (tables : Table → Prop) (indices : List (String × List Document))
    (reads : Option String) (view : Database) : Prop where
  indices : view.indices = indices
  table : ∀ name ∈ reads, view.Keeps tables name

/-- A database serves the walks that ask for some tables: unless there is an excuse,
statements read what is known of the tables that are registered, and a table that is asked
for is registered and filled. -/
structure Serves {σ : Type} (b : Backend σ) (indices : List (String × List Document))
    (tables : Table → Prop) (I : Invariant σ) (Excuse : ExecutionError → Prop) : Prop where
  dialect : b.dialect = .sqlite
  check : ∀ {w : World σ}, I.Holds w → Run.Gives I Excuse w (checkCancelled b) (.ok ())
  read : ∀ {w : World σ} {s : Statement} {view : Database}, I.Holds w → s.readsAll = true →
    (∀ name ∈ s.reads, name ∈ w.arena.names) → view.Shows tables indices s.reads →
    Run.Gives I Excuse w (query b s)
      ((view.answer s).mapError fun e => .aggregation (.evaluation e))
  fill : ∀ {w : World σ} {selection : Selection} {view : Database} {t : Table}, I.Holds w →
    tables t → t.rows = view.fill t.name selection →
    (∀ name ∈ selection.reads, name ∈ w.arena.names) → view.Shows tables indices selection.reads →
    Run.Gives I Excuse w ((materialize b t.name selection).mapError .aggregation)
        ((t.rows.map fun _ => ()).mapError fun e => .aggregation (.evaluation e)) ∧
      ∀ after, ((materialize b t.name selection).mapError ExecutionError.aggregation).within w =
        (.ok (), after) → t.name ∈ after.arena.names

/-- The world behind the statements that fill a table. -/
def World.filling {σ : Type} (b : Backend σ) (name : String) (selection : Selection) (w : World σ) :
    World σ :=
  let created := b.run (.create name selection) (b.run (.drop name) w.state).2
  { w.registering name with
    state := created.2
    log := ⟨.create name selection, failureOf created.1⟩ :: ⟨.drop name, none⟩ :: w.log }

/-- A table is filled if a table of its name can be dropped and it is then created with its
rows; nothing is done if its name is registered. -/
theorem Run.Gives.materialize {σ : Type} {b : Backend σ} {I : Invariant σ}
    {Excuse : ExecutionError → Prop} {w : World σ} {t : Table} {selection : Selection}
    (hw : I.Holds w) (hconsistent : w.arena.Consistent)
    (hfilled : t.name ∈ w.arena.names → ∃ rows, t.rows = .ok rows)
    (hdrop : (b.run (.drop t.name) w.state).1 = .ok [])
    (hcreate : t.name ∉ w.arena.names →
      let answer := (b.run (.create t.name selection) (b.run (.drop t.name) w.state).2).1
      (answer = (t.rows.map fun _ => []).mapError .evaluation ∨
        ∃ e, answer = .error e ∧ Excuse (.aggregation e)) ∧
      (∀ rows, answer = .ok rows → I.Holds (w.filling b t.name selection)) ∧
      I.Survives (w.filling b t.name selection)) :
    Gives I Excuse w ((DocSearch.materialize b t.name selection).mapError .aggregation)
        ((t.rows.map fun _ => ()).mapError fun e => .aggregation (.evaluation e)) ∧
      ∀ after, ((DocSearch.materialize b t.name selection).mapError
        ExecutionError.aggregation).within w = (.ok (), after) → t.name ∈ after.arena.names := by
  have hwithin : ((DocSearch.materialize b t.name selection).mapError
      ExecutionError.aggregation).within w =
      (((DocSearch.materialize b t.name selection).within w).1.mapError .aggregation,
        ((DocSearch.materialize b t.name selection).within w).2) := rfl
  -- a registered name ends the computation; a fresh one is dropped first, which does not fail,
  -- so that only the creation decides
  cases hname : w.arena.registered.contains t.name with
  | true =>
    have hmem : t.name ∈ w.arena.names := (hconsistent.contains t.name).mp hname
    obtain ⟨rows, hok⟩ := hfilled hmem
    rw [within_materialize_of_registered b selection hname] at hwithin
    rw [hwithin, hok]
    refine ⟨.of_world_eq (congrArg Prod.fst hwithin) (congrArg Prod.snd hwithin) hw, ?_⟩
    rintro after ⟨⟩
    exact hmem
  | false =>
    have hfresh : t.name ∉ w.arena.names := Arena.notMem_names hconsistent hname
    have hnames : (w.filling b t.name selection).arena.names = t.name :: w.arena.names :=
      World.names_registering hname
    obtain ⟨hanswer, hholds, hsurvives⟩ := hcreate hfresh
    have hissue : (issue b (.drop t.name)).within (w.registering t.name) =
        (.ok [], { w.registering t.name with
          state := (b.run (.drop t.name) w.state).2
          log := ⟨.drop t.name, none⟩ :: w.log }) := by
      rw [within_issue, show (w.registering t.name).state = w.state from rfl, hdrop]
      rfl
    rw [within_materialize_of_fresh b selection hname, hissue] at hwithin
    replace hwithin : ((DocSearch.materialize b t.name selection).mapError
        ExecutionError.aggregation).within w =
        (((b.run (.create t.name selection) (b.run (.drop t.name) w.state).2).1.map
          fun _ => ()).mapError .aggregation, w.filling b t.name selection) := hwithin
    -- from here on only the answer to the creation matters, not the state that it comes from
    generalize (b.run (.create t.name selection) (b.run (.drop t.name) w.state).2).1 = answer
      at hwithin hanswer hholds
    refine ⟨⟨?_, fun _ hok => ?_, ?_⟩, fun after hafter => ?_⟩
    · rw [hwithin]
      rcases hanswer with rfl | ⟨e, rfl, hexcuse⟩
      · left
        cases t.rows <;> rfl
      · exact .inr ⟨_, rfl, hexcuse⟩
    · rw [hwithin] at hok ⊢
      refine ⟨?_, rfl, ?_⟩
      · cases answer with
        | ok rows => exact hholds rows rfl
        | error e => cases hok
      · rw [hnames]
        exact List.subset_cons_self _ _
    · rw [hwithin]
      exact hsurvives
    · rw [hwithin] at hafter
      rw [← (Prod.mk.inj hafter).2, hnames]
      exact List.mem_cons_self

/-! ### Walks -/

namespace Origin

/-- A place can be read in a world: it is the source, and its table is registered and
known. -/
structure Holds {σ : Type} (o : Origin) (tables : Table → Prop) (p : Place) (w : World σ) :
    Prop where
  scope : w.scope = o.source p
  registered : ∀ name ∈ (o.source p).reads, name ∈ w.arena.names
  shows : (o.view p).Shows tables o.database.indices (o.source p).reads

theorem indices_view (o : Origin) (p : Place) : (o.view p).indices = o.database.indices := by
  cases p <;> rfl

theorem holds_whole {σ : Type} {o : Origin} {tables : Table → Prop} {w : World σ}
    (hscope : w.scope = o.source .whole) : o.Holds tables .whole w :=
  ⟨hscope, fun _ h => (nomatch h), o.indices_view .whole, fun _ h => nomatch h⟩

theorem Holds.of_names {σ : Type} {o : Origin} {tables : Table → Prop} {p : Place}
    {w after : World σ} (h : o.Holds tables p w) (hscope : after.scope = w.scope)
    (hnames : w.arena.names ⊆ after.arena.names) : o.Holds tables p after :=
  ⟨hscope.trans h.scope, fun name hname => hnames (h.registered name hname), h.shows⟩

theorem source_bucket (o : Origin) (p : Place) (key : BucketKey) (rows : List TemporaryRow)
    (k : Int64) : o.source (.bucket p key k) = .table (o.inBucket p key rows k).name := rfl

/-- The rows of a bucket, once those of the buckets around it are known. -/
theorem view_bucket {o : Origin} {p : Place} {key : BucketKey} {rows : List TemporaryRow}
    (hrows : (o.bucketed p key).rows = .ok rows) (k : Int64) :
    o.view (.bucket p key k) =
      o.database.withOnly (o.inBucket p key rows k).name (rowsInBucket k rows) := by
  have hfill : (o.view p).fill (bucketedTableName .sqlite o.context (o.source p) key)
      (.bucketed key (o.source p)) = .ok rows := hrows
  rw [view, hfill]
  rfl

end Origin

section Walks

open Run

variable {σ : Type} {b : Backend σ} {o : Origin} {tables : Table → Prop} {I : Invariant σ}
  {Excuse : ExecutionError → Prop} {p : Place} {w : World σ}

/-- A statement that reads the place of a walk. -/
theorem ask_gives (hS : Serves b o.database.indices tables I Excuse) (hw : I.Holds w)
    (hp : o.Holds tables p w) {s : Statement} (hall : s.readsAll = true)
    (hreads : s.reads = (o.source p).reads) : Gives I Excuse w (query b s) (o.ask p s) :=
  hS.read hw hall (hreads ▸ hp.registered) (hreads ▸ hp.shows)

theorem runMetric_gives (hS : Serves b o.database.indices tables I Excuse) (hw : I.Holds w)
    (hp : o.Holds tables p w) (m : Metric) (field : String) :
    Gives I Excuse w (runMetric b m field) ((Aggregation.metric m field).value o p) := by
  rw [Aggregation.value, runMetric]
  refine Gives.read_bind ?_
  rw [hp.scope]
  refine (ask_gives hS hw hp rfl rfl).bind fun rows after _ _ hI _ _ => ?_
  exact .pure _ hI

theorem groupedBuckets_gives (hS : Serves b o.database.indices tables I Excuse) (hw : I.Holds w)
    (hp : o.Holds tables p w) (key : BucketKey) (format : Option DateFormat) :
    Gives I Excuse w (groupedBuckets b key format) (o.groupedBuckets p key format) := by
  refine Gives.read_bind ?_
  rw [hp.scope]
  refine (ask_gives hS hw hp rfl rfl).bind fun rows after _ _ hI _ _ => ?_
  exact .pure _ hI

/-- The only table that is read is known. -/
theorem shows_withOnly {t : Table} {rows : List TemporaryRow} {db : Database} (ht : tables t)
    (hrows : t.rows = .ok rows) : (db.withOnly t.name rows).Shows tables db.indices (some t.name) := by
  refine ⟨rfl, fun name hname => ?_⟩
  cases hname
  exact ⟨t, rows, ht, rfl, hrows, db.temporaryTable?_withOnly t.name rows⟩

theorem mem_of_mem_some {name : String} {names : List String} (h : name ∈ names) :
    ∀ other ∈ some name, other ∈ names := by
  intro other hother
  cases hother
  exact h

/-- One bucket: its table is filled and counted, and the children read it. -/
theorem runBucket_gives (hS : Serves b o.database.indices tables I Excuse) (hw : I.Holds w)
    {key : BucketKey} {rows : List TemporaryRow} (hrows : (o.bucketed p key).rows = .ok rows)
    (hbucketed : tables (o.bucketed p key)) (hregistered : (o.bucketed p key).name ∈ w.arena.names)
    {k : Int64} (hbucket : tables (o.inBucket p key rows k)) (format : Option DateFormat)
    {children : Run σ ExecutionError (List (String × Json))}
    {values : Except ExecutionError (List (String × Json))}
    (hchildren : ∀ after : World σ, I.Holds after → o.Holds tables (.bucket p key k) after →
      Gives I Excuse after children values) :
    Gives I Excuse w (runBucket b format (o.bucketed p key).name children k)
      (Origin.bucketOf format rows k values) := by
  have hview := Origin.view_bucket hrows k
  have hsource := o.source_bucket p key rows k
  -- the digest in the name of the table is not to be computed
  generalize ht : o.inBucket p key rows k = t at hbucket hview hsource
  have htable : bucketTableName (o.bucketed p key).name k = t.name := by
    rw [← ht]
    rfl
  have htrows : t.rows = .ok (rowsInBucket k rows) := by
    rw [← ht]
    rfl
  rw [runBucket, htable]
  refine (hS.check hw).bind_ok fun w₁ _ hw₁ _ hnames₁ => ?_
  have hfilled : t.rows = (o.database.withOnly (o.bucketed p key).name rows).fill t.name
      (.bucket (o.bucketed p key).name k) := by
    rw [Database.fill_bucket k (o.database.temporaryTable?_withOnly _ rows), htrows]
    rfl
  obtain ⟨hfill, hfresh⟩ := hS.fill hw₁ hbucket hfilled
    (mem_of_mem_some (hnames₁ hregistered)) (shows_withOnly hbucketed hrows)
  rw [htrows] at hfill
  refine hfill.bind_ok fun w₂ hwithin hw₂ _ _ => ?_
  have hregistered₂ : t.name ∈ w₂.arena.names := hfresh w₂ hwithin
  -- the count is that of the rows of the bucket
  have hcount : (o.database.withOnly t.name (rowsInBucket k rows)).answer (.count (.table t.name)) =
      .ok [[.integer (Int64.ofNat (rowsInBucket k rows).length)]] :=
    Database.answer_count_table (o.database.temporaryTable?_withOnly _ _)
  have hread := hS.read (s := .count (.table t.name)) hw₂ rfl
    (mem_of_mem_some hregistered₂) (shows_withOnly hbucket htrows)
  rw [hcount] at hread
  refine hread.bind_ok fun w₃ _ hw₃ _ hnames₃ => ?_
  refine Gives.bind ?_ fun results after _ _ hI _ _ => .pure _ hI
  refine Gives.withScope (hchildren _ (I.holds_scope _ hw₃) ⟨hsource.symm, ?_, ?_⟩)
  · rw [hsource]
    exact mem_of_mem_some (hnames₃ hregistered₂)
  · rw [hview, hsource]
    exact shows_withOnly hbucket htrows

theorem filterMap_keyRows (keys : List Int64) :
    ((keys.map fun key => ([.integer key] : Row)).filterMap fun row =>
      row.head?.bind Sql.Value.toInt64?) = keys := by
  induction keys with
  | nil => rfl
  | cons key keys ih =>
    rw [List.map_cons, List.filterMap_cons, ih]
    rfl

/-- The buckets of a histogram with children: the table of buckets is filled, and then the
tables of its buckets one after the other. -/
theorem materializedBuckets_gives (hS : Serves b o.database.indices tables I Excuse) (hw : I.Holds w)
    (hp : o.Holds tables p w) {key : BucketKey} (hbucketed : tables (o.bucketed p key))
    (hbuckets : ∀ rows, (o.bucketed p key).rows = .ok rows → ∀ k ∈ bucketKeys rows,
      tables (o.inBucket p key rows k))
    (format : Option DateFormat) {children : Run σ ExecutionError (List (String × Json))}
    {values : Int64 → Except ExecutionError (List (String × Json))}
    (hchildren : ∀ rows, (o.bucketed p key).rows = .ok rows → ∀ k ∈ bucketKeys rows,
      ∀ after : World σ, I.Holds after → o.Holds tables (.bucket p key k) after →
        Gives I Excuse after children (values k)) :
    Gives I Excuse w (materializedBuckets b o.context key format children)
      (o.filledBuckets p key format values) := by
  have hname : bucketedTableName b.dialect o.context (o.source p) key = (o.bucketed p key).name := by
    rw [hS.dialect]
    rfl
  have hrows : (o.bucketed p key).rows =
      (o.view p).fill (o.bucketed p key).name (.bucketed key (o.source p)) := rfl
  obtain ⟨hfill, hfresh⟩ := hS.fill hw hbucketed hrows hp.registered hp.shows
  refine Gives.read_bind ?_
  rw [hp.scope, hname, Origin.filledBuckets]
  cases hr : (o.bucketed p key).rows with
  | error e =>
    rw [hr] at hfill
    exact hfill.bind_error
  | ok rows =>
    rw [hr] at hfill
    refine hfill.bind_ok fun w₁ hwithin hw₁ hscope₁ _ => ?_
    have hregistered : (o.bucketed p key).name ∈ w₁.arena.names := hfresh w₁ hwithin
    have hread := hS.read (s := .buckets (o.bucketed p key).name) hw₁ rfl
      (mem_of_mem_some hregistered) (shows_withOnly hbucketed hr)
    rw [Database.answer_buckets (o.database.temporaryTable?_withOnly _ rows)] at hread
    refine hread.bind_ok fun w₂ _ hw₂ hscope₂ hnames₂ => ?_
    -- the keys that are listed are those of the rows, so each bucket is one that was foreseen
    rw [filterMap_keyRows]
    refine Gives.mapM hw₂ fun k hk after hafter _ hnames => ?_
    exact runBucket_gives hS hafter hr hbucketed (hnames (hnames₂ hregistered)) (hbuckets rows hr k hk)
      format fun later => hchildren rows hr k hk later

mutual

/-- **A walk that is served comes to the value of its aggregation**, or fails with an
excuse. -/
theorem Aggregation.run_gives (hS : Serves b o.database.indices tables I Excuse) :
    ∀ (a : Aggregation) {p : Place} {w : World σ}, I.Holds w → o.Holds tables p w →
      (∀ t ∈ a.tables o p, tables t) →
      Gives I Excuse w (Aggregation.run b o.context a) (a.value o p)
  | .metric m field, p, w, hw, hp, _ => by
    rw [Aggregation.run]
    refine (hS.check hw).bind_ok fun after _ hI hscope hnames => ?_
    exact runMetric_gives hS hI (hp.of_names hscope hnames) m field
  | .dateHistogram field interval format children, p, w, hw, hp, ht => by
    rw [Aggregation.run, Aggregation.value]
    refine (hS.check hw).bind_ok fun after _ hI hscope hnames => ?_
    have hp := hp.of_names hscope hnames
    refine (Gives.lift (bucketKey o.context field interval) hI).bind ?_
    intro key later hkey _ hlater hscope' hnames'
    have hp := hp.of_names hscope' hnames'
    rw [Aggregation.tables, hkey] at ht
    cases hempty : children.isEmpty with
    | true =>
      refine (groupedBuckets_gives hS hlater hp key format).bind ?_
      exact fun buckets last _ _ hlast _ _ => .pure _ hlast
    | false =>
      -- the tables that are foreseen for the children are found below the bucket of their key
      simp only [hempty, Bool.false_eq_true, if_false, List.forall_mem_cons] at ht
      obtain ⟨hbucketed, hbuckets⟩ := ht
      refine Gives.bind (materializedBuckets_gives hS hlater hp hbucketed ?_ format ?_)
        fun buckets last _ _ hlast _ _ => .pure _ hlast
      · intro rows hrows k hk
        rw [hrows] at hbuckets
        exact hbuckets _ (List.mem_flatMap.mpr ⟨k, hk, List.mem_cons_self⟩)
      · intro rows hrows k hk last hlast hplace
        rw [hrows] at hbuckets
        refine Aggregations.run_gives hS children hlast hplace fun t htable => ?_
        exact hbuckets t (List.mem_flatMap.mpr ⟨k, hk, List.mem_cons_of_mem _ htable⟩)

theorem Aggregations.run_gives (hS : Serves b o.database.indices tables I Excuse) :
    ∀ (siblings : List (String × Aggregation)) {p : Place} {w : World σ}, I.Holds w →
      o.Holds tables p w → (∀ t ∈ Aggregations.tables o siblings p, tables t) →
      Gives I Excuse w (Aggregations.run b o.context siblings) (Aggregations.value o siblings p)
  | [], p, w, hw, _, _ => by
    rw [Aggregations.run, Aggregations.value]
    exact .pure [] hw
  | (name, a) :: rest, p, w, hw, hp, ht => by
    rw [Aggregations.tables, List.forall_mem_append] at ht
    rw [Aggregations.run, Aggregations.value]
    refine (Aggregation.run_gives hS a hw hp ht.1).bind fun result after _ _ hI hscope hnames => ?_
    refine (Aggregations.run_gives hS rest hI (hp.of_names hscope hnames) ht.2).bind ?_
    intro results later _ _ hlater _ _
    exact .pure _ hlater

end

theorem Aggregations.execute_gives (hS : Serves b o.database.indices tables I Excuse)
    (siblings : Aggregations) (hw : I.Holds w) (hp : o.Holds tables p w)
    (ht : ∀ t ∈ Aggregations.tables o siblings p, tables t) :
    Gives I Excuse w (Aggregations.execute b o.context siblings) (Aggregations.value o siblings p) :=
  (hS.check hw).bind_ok fun _ _ hI hscope hnames =>
    Aggregations.run_gives hS siblings hI (hp.of_names hscope hnames) ht

end Walks

end DocSearch
