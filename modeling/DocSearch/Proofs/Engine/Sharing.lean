import DocSearch.Proofs.Engine.Searches

/-!
# Searches on a database that others use

Between two statements of a search, others may drop a table that it has created, or create
one that it is about to create.  What they cannot do is to put other rows into it: a table
of this name holds the rows that are known of it, whoever has created it.  So a statement
reads what is known, or it fails because a table is missing, or because one is there
already.  A search that shares its database in this way comes to its value, or it fails on
an aggregation, or it has been cancelled.

## Main definitions

* `Encounters` — what a search meets at its statements, `Encounters.backend`.
* `Database.Fits` — temporary tables that are there hold what is known of them.
* `Statement.IsKnown` — a table is created with rows that are known, and read if it is known.
* `Excused` — how a search may fail because it shares its database.

## Main results

* `Database.Fits.answer`, `Database.Fits.fill` — statements read what is known, or they
  fail.
* `Database.Fits.run` — statements that are known leave a database that fits.
* `search_shared` — a search that shares its database comes to its value or is excused.
-/

namespace DocSearch

/-! ### What a search meets -/

/-- What a search meets on its way: the database as it is when each of its further
statements arrives, with whether the search is cancelled behind it. -/
structure Encounters where
  /-- The database at each further statement, and whether the search is cancelled then. -/
  ahead : List Session := []
  /-- Whether the search has been cancelled. -/
  cancelled : Bool := false

namespace Encounters

/-- What the next statement meets: a database at rest once there is nothing ahead. -/
def next (atRest : Database) (e : Encounters) : Session := e.ahead.headD ⟨atRest, e.cancelled⟩

/-- What is left to be met behind the next statement. -/
def behind (atRest : Database) (e : Encounters) : Encounters :=
  ⟨e.ahead.tail, (e.next atRest).cancelled⟩

/-- The answer to a statement is that of the database that it meets. -/
def run (atRest : Database) (s : Statement) (e : Encounters) :
    Except StoreError (List Row) × Encounters :=
  ((Session.run s (e.next atRest)).1, e.behind atRest)

/-- The database as a search meets it.  The indices are those of the database at rest. -/
def backend (atRest : Database) : Backend Encounters where
  dialect := .sqlite
  run := run atRest
  cancelled := cancelled
  tableFor := fun index _ => atRest.tableFor index
  listIndices := fun _ => .ok atRest.listIndices

/-- Whether the search is cancelled at some time. -/
def isFlagged (e : Encounters) : Bool := e.cancelled || e.ahead.any (·.cancelled)

end Encounters

/-! ### Databases that fit -/

variable {tables : Table → Prop} {indices : List (String × List Document)} {db view : Database}

/-- A database has the documents of the indices, and temporary tables that are there hold
what is known of them. -/
structure Database.Fits (tables : Table → Prop) (indices : List (String × List Document))
    (db : Database) : Prop where
  indices : db.indices = indices
  temporary : ∀ t, tables t → db.temporaryTable? t.name = none ∨ db.Keeps tables t.name

/-- If a statement creates a table, then with rows that are known of a table of this
name; and if it reads a table, then one that is known. -/
def Statement.IsKnown (tables : Table → Prop) (indices : List (String × List Document)) :
    Statement → Prop
  | .create name selection => ∃ t view, tables t ∧ t.name = name ∧
      t.rows = Database.fill view name selection ∧ view.Shows tables indices selection.reads
  | s => ∀ name ∈ s.reads, ∃ t, tables t ∧ t.name = name

theorem Statement.isKnown_of_read {s : Statement} (hs : s.isCommand = false)
    (hreads : ∀ name ∈ s.reads, ∃ t, tables t ∧ t.name = name) : s.IsKnown tables indices := by
  cases s with
  | drop table => cases hs
  | create table selection => cases hs
  | _ => exact hreads

theorem Statement.isKnown_drop (name : String) : (Statement.drop name).IsKnown tables indices :=
  fun _ h => nomatch h

namespace Database.Fits

/-- What fits many tables fits some of them. -/
theorem mono {all : Table → Prop} (hall : Coherent all) (htables : ∀ t, tables t → all t)
    (hdb : db.Fits all indices) : db.Fits tables indices := by
  refine ⟨hdb.indices, fun t ht => (hdb.temporary t (htables t ht)).imp_right ?_⟩
  rintro ⟨u, rows, hu, hname, hrows, hthere⟩
  exact ⟨t, rows, ht, rfl, (hall t u (htables t ht) hu hname.symm).trans hrows, hthere⟩

/-- What is read is what is known, or it is missing. -/
theorem agreesOn_or_missing (htables : Coherent tables) (hdb : db.Fits tables indices)
    {reads : Option String} (hview : view.Shows tables indices reads) :
    db.AgreesOn reads view ∨ ∃ name, reads = some name ∧ db.temporaryTable? name = none := by
  cases reads with
  | none => exact .inl ⟨hdb.indices.trans hview.indices.symm, fun _ h => nomatch h⟩
  | some name =>
    obtain ⟨t, -, ht, rfl, -, -⟩ := hview.table name rfl
    rcases hdb.temporary t ht with hmissing | hkeeps
    · exact .inr ⟨t.name, rfl, hmissing⟩
    · refine .inl (.of_keeps htables hdb.indices ?_ hview)
      rintro other ⟨⟩
      exact hkeeps

/-- **A statement reads what is known, or it fails.** -/
theorem answer (htables : Coherent tables) (hdb : db.Fits tables indices) {s : Statement}
    (hall : s.readsAll = true) (hview : view.Shows tables indices s.reads) :
    db.answer s = view.answer s ∨ ∃ e, db.answer s = .error e := by
  rcases hdb.agreesOn_or_missing htables hview with hagrees | ⟨name, hreads, hmissing⟩
  · exact .inl hagrees.answer
  · exact .inr (Database.answer_of_missing hreads hall hmissing)

/-- A table is filled with what is known, or this fails. -/
theorem fill (htables : Coherent tables) (hdb : db.Fits tables indices) {selection : Selection}
    (hview : view.Shows tables indices selection.reads) (name : String) :
    db.fill name selection = view.fill name selection ∨ ∃ e, db.fill name selection = .error e := by
  rcases hdb.agreesOn_or_missing htables hview with hagrees | ⟨missing, hreads, hmissing⟩
  · exact .inl (hagrees.fill name)
  · exact .inr (Database.fill_of_missing hreads hmissing name)

theorem dropTemporary (hdb : db.Fits tables indices) (dropped : String) :
    (db.dropTemporary dropped).Fits tables indices := by
  refine ⟨hdb.indices, fun t ht => ?_⟩
  by_cases hname : t.name = dropped
  · left
    rw [Database.temporaryTable?_dropTemporary, if_pos hname]
  · rcases hdb.temporary t ht with hmissing | hkeeps
    · left
      rw [Database.temporaryTable?_dropTemporary, if_neg hname, hmissing]
    · exact .inr (hkeeps.dropTemporary hname)

theorem addTemporary (hdb : db.Fits tables indices) {t : Table} (ht : tables t)
    {rows : List TemporaryRow} (hrows : t.rows = .ok rows) :
    (db.addTemporary t.name rows).Fits tables indices := by
  refine ⟨hdb.indices, fun u hu => ?_⟩
  by_cases hname : u.name = t.name
  · right
    rw [hname]
    exact Database.keeps_addTemporary db ht hrows
  · rcases hdb.temporary u hu with hmissing | hkeeps
    · left
      rw [Database.temporaryTable?_addTemporary, if_neg hname, hmissing]
    · exact .inr (hkeeps.addTemporary hname rows)

/-- Creating a table of which the rows are known gives these rows, or it fails and changes
nothing. -/
theorem run_create (htables : Coherent tables) {session : Session}
    (hdb : session.database.Fits tables indices) {t : Table} {selection : Selection}
    (hrows : t.rows = view.fill t.name selection)
    (hview : view.Shows tables indices selection.reads) :
    (∃ rows, t.rows = .ok rows ∧ session.database.temporaryTable? t.name = none ∧
        Session.run (.create t.name selection) session =
          (.ok [], { session with database := session.database.addTemporary t.name rows })) ∨
      ∃ e, Session.run (.create t.name selection) session = (.error (.evaluation e), session) := by
  rw [Session.run_create]
  cases hthere : session.database.temporaryTable? t.name with
  | some rows => exact .inr ⟨_, rfl⟩
  | none =>
    rcases hdb.fill htables hview t.name with hfill | ⟨e, hfill⟩
    · rw [hfill, ← hrows]
      cases t.rows with
      | ok rows => exact .inl ⟨rows, rfl, rfl, rfl⟩
      | error e => exact .inr ⟨e, rfl⟩
    · rw [hfill]
      exact .inr ⟨e, rfl⟩

/-- **Statements that are known leave a database that fits.** -/
theorem run (htables : Coherent tables) {session : Session}
    (hdb : session.database.Fits tables indices) {s : Statement} (hs : s.IsKnown tables indices) :
    (Session.run s session).2.database.Fits tables indices := by
  cases hcommand : s.isCommand with
  | false =>
    rw [Session.run_of_read hcommand]
    exact hdb
  | true =>
    cases s with
    | drop name => exact hdb.dropTemporary name
    | create name selection =>
      obtain ⟨t, view, ht, rfl, hrows, hview⟩ := hs
      rcases hdb.run_create htables hrows hview with ⟨rows, hok, -, hrun⟩ | ⟨e, hrun⟩
      · rw [hrun]
        exact hdb.addTemporary ht hok
      · rw [hrun]
        exact hdb
    | _ => cases hcommand

end Database.Fits

/-! ### Searches that share a database -/

/-- How a search may fail because it shares its database: on an aggregation, or because it
is flagged as cancelled. -/
def Excused (flagged : Prop) : ExecutionError → Prop
  | .aggregation _ => True
  | .cancelled => flagged
  | _ => False

namespace Encounters

variable {flagged : Prop} {atRest : Database}

/-- All databases that are met fit, and the search is cancelled only if it is flagged. -/
structure Fits (tables : Table → Prop) (indices : List (String × List Document)) (flagged : Prop)
    (e : Encounters) : Prop where
  databases : ∀ session ∈ e.ahead, session.database.Fits tables indices
  cancelled : e.cancelled = true → flagged
  cancelledAhead : ∀ session ∈ e.ahead, session.cancelled = true → flagged

/-- What is met next fits, and so does everything that is met behind it. -/
theorem Fits.next {e : Encounters} (he : e.Fits tables indices flagged)
    (hrest : atRest.Fits tables indices) :
    (e.next atRest).database.Fits tables indices ∧
      (e.behind atRest).Fits tables indices flagged := by
  obtain ⟨ahead, cancelled⟩ := e
  cases ahead with
  | nil => exact ⟨hrest, fun _ h => (nomatch h), he.cancelled, fun _ h => nomatch h⟩
  | cons session ahead =>
    obtain ⟨hsession, hdatabases⟩ := List.forall_mem_cons.mp he.databases
    obtain ⟨hcancelled, hahead⟩ := List.forall_mem_cons.mp he.cancelledAhead
    exact ⟨hsession, hdatabases, hcancelled, hahead⟩

/-- The world of a search that shares its database: what it meets fits, and it creates
tables with rows that are known. -/
structure Shared (tables : Table → Prop) (indices : List (String × List Document))
    (flagged : Prop) (w : World Encounters) : Prop where
  fits : w.state.Fits tables indices flagged
  known : ∀ i ∈ w.log, i.statement.IsKnown tables indices

/-- As long as nothing fails, the rows of every table that is registered are known. -/
structure Walking (tables : Table → Prop) (indices : List (String × List Document))
    (flagged : Prop) (w : World Encounters) : Prop extends Shared tables indices flagged w where
  consistent : w.arena.Consistent
  filled : ∀ name ∈ w.arena.names, ∃ t rows, tables t ∧ t.name = name ∧ t.rows = .ok rows

def invariant (tables : Table → Prop) (indices : List (String × List Document)) (flagged : Prop) :
    Invariant Encounters where
  Holds := Walking tables indices flagged
  Survives := Shared tables indices flagged
  survives := fun hw => hw.toShared
  holds_scope := fun _ ⟨⟨hfits, hknown⟩, hconsistent, hfilled⟩ =>
    ⟨⟨hfits, hknown⟩, hconsistent, hfilled⟩
  survives_scope := fun _ ⟨hfits, hknown⟩ => ⟨hfits, hknown⟩

theorem walking_start {e : Encounters} (he : e.Fits tables indices flagged) :
    Walking tables indices flagged (World.start e) :=
  ⟨⟨he, fun _ h => nomatch h⟩, Arena.consistent_empty, fun _ h => nomatch h⟩

/-- A statement of which the rows are known leaves a world of this kind. -/
theorem Shared.issue {w : World Encounters} (hw : Shared tables indices flagged w)
    (hrest : atRest.Fits tables indices) {s : Statement} (hs : s.IsKnown tables indices) :
    Shared tables indices flagged ((issue (backend atRest) s).within w).2 :=
  ⟨(hw.fits.next hrest).2, List.forall_mem_cons.mpr ⟨hs, hw.known⟩⟩

theorem query_gives (htables : Coherent tables) (hrest : atRest.Fits tables indices)
    {w : World Encounters} {s : Statement} {view : Database}
    (hw : Walking tables indices flagged w) (hall : s.readsAll = true)
    (hview : view.Shows tables indices s.reads) :
    Run.Gives (invariant tables indices flagged) (Excused flagged) w (query (backend atRest) s)
      ((view.answer s).mapError fun e => .aggregation (.evaluation e)) := by
  have hcommand := Statement.isCommand_of_readsAll hall
  have hreads : ∀ name ∈ s.reads, ∃ t, tables t ∧ t.name = name := fun name hname =>
    have ⟨t, _, ht, hsame, _⟩ := hview.table name hname
    ⟨t, ht, hsame⟩
  have hshared := hw.toShared.issue hrest (Statement.isKnown_of_read hcommand hreads)
  have hrun : (backend atRest).run s w.state = _ := rfl
  have hquery : ((query (backend atRest) s).within w).1 =
      (((w.state.next atRest).database.answer s).mapError .evaluation).mapError .aggregation := by
    show ((Session.run s (w.state.next atRest)).1).mapError _ = _
    rw [Session.run_of_read hcommand]
  refine ⟨?_, fun rows _ => ⟨⟨hshared, hw.consistent, hw.filled⟩, rfl, List.Subset.refl _⟩, hshared⟩
  rw [hquery]
  rcases (hw.fits.next hrest).1.answer htables hall hview with hanswer | ⟨e, hanswer⟩
  · rw [hanswer]
    left
    cases view.answer s <;> rfl
  · rw [hanswer]
    exact .inr ⟨_, rfl, trivial⟩

/-- A table that is asked for is registered and filled with the rows that are known, unless
it is there already or something is missing. -/
theorem materialize_gives (htables : Coherent tables) (hrest : atRest.Fits tables indices)
    {w : World Encounters} {t : Table} {selection : Selection} {view : Database}
    (hw : Walking tables indices flagged w) (ht : tables t)
    (hrows : t.rows = view.fill t.name selection)
    (hview : view.Shows tables indices selection.reads) :
    Run.Gives (invariant tables indices flagged) (Excused flagged) w
        ((materialize (backend atRest) t.name selection).mapError .aggregation)
        ((t.rows.map fun _ => ()).mapError fun e => .aggregation (.evaluation e)) ∧
      ∀ after, ((materialize (backend atRest) t.name selection).mapError
        ExecutionError.aggregation).within w = (.ok (), after) → t.name ∈ after.arena.names := by
  refine Run.Gives.materialize hw hw.consistent (fun hmem => ?_) rfl fun hfresh => ?_
  · obtain ⟨u, rows, hu, hname, hok⟩ := hw.filled t.name hmem
    exact ⟨rows, (htables u t hu ht hname ▸ hok)⟩
  · have hnew : w.arena.registered.contains t.name = false :=
      Arena.contains_eq_false hw.consistent hfresh
    -- the table is created in the database that is met behind the drop
    have hdropped := (hw.fits.next hrest).2
    have hcreated := hdropped.next hrest
    have hshared : Shared tables indices flagged (w.filling (backend atRest) t.name selection) :=
      ⟨hcreated.2, List.forall_mem_cons.mpr ⟨⟨t, view, ht, rfl, hrows, hview⟩,
        List.forall_mem_cons.mpr ⟨Statement.isKnown_drop _, hw.known⟩⟩⟩
    have hanswer : ((backend atRest).run (.create t.name selection)
        ((backend atRest).run (.drop t.name) w.state).2).1 =
          (Session.run (.create t.name selection) ((w.state.behind atRest).next atRest)).1 := rfl
    rcases hcreated.1.run_create htables hrows hview with ⟨rows, hok, -, hrun⟩ | ⟨e, hrun⟩
    · rw [hrun] at hanswer
      refine ⟨.inl ?_, fun _ _ => ⟨hshared, hw.consistent.register hnew, fun name hmem => ?_⟩, hshared⟩
      · rw [hanswer, hok]
        rfl
      · replace hmem : name ∈ (w.registering t.name).arena.names := hmem
        rw [World.names_registering hnew] at hmem
        rcases List.mem_cons.mp hmem with rfl | hmem
        · exact ⟨t, rows, ht, rfl, hok⟩
        · exact hw.filled name hmem
    · rw [hrun] at hanswer
      refine ⟨.inr ⟨_, hanswer, trivial⟩, fun rows hok => ?_, hshared⟩
      rw [hanswer] at hok
      cases hok

/-- **A shared database serves a walk**, with excuses. -/
theorem serves (htables : Coherent tables) (hrest : atRest.Fits tables indices) :
    Serves (backend atRest) indices tables (invariant tables indices flagged) (Excused flagged) where
  dialect := rfl
  check := fun {w} hw => by
    have hwithin : (checkCancelled (backend atRest)).within w =
        (if w.state.cancelled = true then .error .cancelled else .ok (), w) := rfl
    refine ⟨?_, fun _ _ => ?_, ?_⟩
    · rw [hwithin]
      cases hcancelled : w.state.cancelled with
      | true => exact .inr ⟨_, rfl, hw.fits.cancelled hcancelled⟩
      | false => exact .inl rfl
    · rw [hwithin]
      exact ⟨hw, rfl, List.Subset.refl _⟩
    · rw [hwithin]
      exact hw.toShared
  read := fun hw hall _ hview => query_gives htables hrest hw hall hview
  fill := fun hw ht hrows _ hview => materialize_gives htables hrest hw ht hrows hview

variable {v : Corpus}

theorem servesSearches (htables : Coherent tables)
    (hrest : v.database.Fits tables v.database.indices) :
    ServesSearches (backend v.database) v tables
      (invariant tables v.database.indices flagged) (Excused flagged) where
  walks := serves htables hrest
  listIndices := fun _ => rfl
  tableFor := fun _ _ => rfl
  read := fun {w s} hw hs hreads => by
    have hfits := (hw.fits.next hrest).1
    have hanswer : (w.state.next v.database).database.answer s = v.database.answer s :=
      Database.AgreesOn.answer ⟨hfits.indices, by rw [hreads]; exact fun _ h => nomatch h⟩
    have hnone : ∀ name ∈ s.reads, ∃ t, tables t ∧ t.name = name := by
      rw [hreads]
      exact fun _ h => nomatch h
    refine ⟨?_, hw.issue hrest (Statement.isKnown_of_read hs hnone)⟩
    show (Session.run s (w.state.next v.database)).1 = _
    rw [Session.run_of_read hs, hanswer]
  drop := rfl
  survives_drop := fun {w name arena} _ hw =>
    Shared.issue (w := { w with arena }) ⟨hw.fits, hw.known⟩ hrest (Statement.isKnown_drop name)
  cancelled := fun hw hcancelled => hw.fits.cancelled hcancelled

end Encounters

namespace Corpus

/-- A search as it meets a database that others use. -/
def encounter (v : Corpus) (call : SearchCall) (e : Encounters) :
    Except ExecutionError Response × World Encounters :=
  (search (Encounters.backend v.database) v.mappings v.options call).within (World.start e)

/-- **A search that shares its database comes to its value**, or it fails on an aggregation,
or it is cancelled; and it creates tables with rows that are known. -/
theorem search_shared {v : Corpus} {flagged : Prop} (htables : Coherent tables)
    (hrest : v.database.Fits tables v.database.indices) {call : SearchCall}
    (ht : ∀ t ∈ v.tables call, tables t) {e : Encounters}
    (he : e.Fits tables v.database.indices flagged) :
    ((v.encounter call e).1 = v.value call ∨
      ∃ cause, (v.encounter call e).1 = .error cause ∧ Excused flagged cause) ∧
    ∀ i ∈ (v.encounter call e).2.log, i.statement.IsKnown tables v.database.indices := by
  obtain ⟨hresult, hshared⟩ :=
    search_gives (Encounters.servesSearches htables hrest) (Encounters.walking_start he) ht
  exact ⟨hresult, hshared.known⟩

end Corpus

end DocSearch
