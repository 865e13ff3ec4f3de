import DocSearch.Proofs.Engine.Cleanup
import DocSearch.Proofs.Engine.Serving

/-!
# Walks that have a database for themselves

A table may be shared by two places of a walk, or be left over from another one.  Neither
matters if tables of one name hold the same rows.  Then a database that nobody else uses
serves every walk, without any excuse: what is registered stays there until the clean-up.

## Main definitions

* `Coherent` — tables of one name hold the same rows.
* `Session.Undisturbed` — the tables that a search has registered are there.

## Main results

* `Database.AgreesOn.of_keeps` — what is read of tables that are kept is what is known.
* `Session.serves` — a database that nobody else uses serves a walk.
-/

namespace DocSearch

/-! ### Temporary tables -/

namespace Database

theorem lookup_filter {α : Type} (keep : String → Bool) (name : String) (members : List (String × α)) :
    (members.filter fun m => keep m.1).lookup name =
      if keep name then members.lookup name else none := by
  induction members with
  | nil => exact (ite_self _).symm
  | cons m members ih =>
    obtain ⟨key, value⟩ := m
    rw [List.filter_cons, Members.lookup_cons]
    by_cases hname : name = key
    · subst hname
      cases hkey : keep name with
      | true => simp
      | false => simpa [hkey] using ih
    · cases hkey : keep key <;> simp [Members.lookup_cons, hname, ih]

theorem temporaryTable?_dropTemporary (db : Database) (dropped name : String) :
    (db.dropTemporary dropped).temporaryTable? name =
      if name = dropped then none else db.temporaryTable? name := by
  refine (lookup_filter (· != dropped) name db.temporary).trans ?_
  by_cases hname : name = dropped <;> simp [hname, temporaryTable?]

theorem temporaryTable?_addTemporary (db : Database) (added name : String)
    (rows : List TemporaryRow) : (db.addTemporary added rows).temporaryTable? name =
      if name = added then some rows else db.temporaryTable? name :=
  Members.lookup_cons name added rows db.temporary

end Database

/-! ### Statements of a session -/

namespace Session

/-- A statement that reads changes nothing. -/
theorem run_of_read {s : Statement} (hs : s.isCommand = false) (session : Session) :
    run s session = ((session.database.answer s).mapError .evaluation, session) := by
  have hexecute : session.database.execute s = .ok session.database := by
    cases s with
    | drop table => cases hs
    | create table selection => cases hs
    | _ => rfl
  rw [run, hexecute]
  cases session.database.answer s <;> rfl

theorem run_drop (name : String) (session : Session) :
    run (.drop name) session =
      (.ok [], { session with database := session.database.dropTemporary name }) := rfl

theorem run_create (name : String) (selection : Selection) (session : Session) :
    run (.create name selection) session =
      if (session.database.temporaryTable? name).isSome then
        (.error (.evaluation (.tableExists name)), session)
      else match session.database.fill name selection with
        | .ok rows => (.ok [], { session with database := session.database.addTemporary name rows })
        | .error e => (.error (.evaluation e), session) := by
  have hanswer : session.database.answer (.create name selection) = .ok [] := rfl
  rw [run, hanswer, Database.execute, Database.fill]
  cases (session.database.temporaryTable? name).isSome with
  | true => rfl
  | false =>
    cases (Statement.create name selection).refusal? with
    | some e => rfl
    | none => cases session.database.select selection <;> rfl

end Session

/-! ### Tables that are known -/

/-- Tables of one name hold the same rows. -/
def Coherent (tables : Table → Prop) : Prop :=
  ∀ t u, tables t → tables u → t.name = u.name → t.rows = u.rows

namespace Database

variable {tables : Table → Prop} {indices : List (String × List Document)} {db view : Database}

/-- What is known of a table determines its rows. -/
theorem Keeps.temporaryTable?_eq (htables : Coherent tables) {name : String}
    (hdb : db.Keeps tables name) (hview : view.Keeps tables name) :
    db.temporaryTable? name = view.temporaryTable? name := by
  obtain ⟨t, rows, ht, htname, htrows, hthere⟩ := hdb
  obtain ⟨u, rows', hu, huname, hurows, hshown⟩ := hview
  have hsame : t.rows = u.rows := htables t u ht hu (htname.trans huname.symm)
  rw [htrows, hurows] at hsame
  rw [hthere, hshown, Except.ok.inj hsame]

theorem Keeps.rows_eq_ok (htables : Coherent tables) {t : Table} (hdb : db.Keeps tables t.name)
    (ht : tables t) : ∃ rows, t.rows = .ok rows := by
  obtain ⟨u, rows, hu, hname, hrows, -⟩ := hdb
  exact ⟨rows, (htables t u ht hu hname.symm).trans hrows⟩

/-- **What is read of tables that are kept is what is known of them.** -/
theorem AgreesOn.of_keeps {reads : Option String} (htables : Coherent tables)
    (hindices : db.indices = indices) (hdb : ∀ name ∈ reads, db.Keeps tables name)
    (hview : view.Shows tables indices reads) : AgreesOn reads db view :=
  ⟨hindices.trans hview.indices.symm, fun name hname =>
    (hdb name hname).temporaryTable?_eq htables (hview.table name hname)⟩

theorem Keeps.dropTemporary {name dropped : String} (hdb : db.Keeps tables name)
    (hne : name ≠ dropped) : (db.dropTemporary dropped).Keeps tables name := by
  rw [Keeps, temporaryTable?_dropTemporary, if_neg hne]
  exact hdb

theorem Keeps.addTemporary {name added : String} (hdb : db.Keeps tables name)
    (hne : name ≠ added) (rows : List TemporaryRow) :
    (db.addTemporary added rows).Keeps tables name := by
  rw [Keeps, temporaryTable?_addTemporary, if_neg hne]
  exact hdb

theorem keeps_addTemporary {t : Table} {rows : List TemporaryRow} (db : Database) (ht : tables t)
    (hrows : t.rows = .ok rows) : (db.addTemporary t.name rows).Keeps tables t.name :=
  ⟨t, rows, ht, rfl, hrows, by rw [temporaryTable?_addTemporary, if_pos rfl]⟩

end Database

/-! ### A database that nobody else uses -/

namespace Session

variable {tables : Table → Prop} {indices : List (String × List Document)}

/-- A search that has the database for itself has not been cancelled, and every table that
it has registered is there.  There may be other tables besides. -/
structure Undisturbed (tables : Table → Prop) (indices : List (String × List Document))
    (w : World Session) : Prop where
  running : w.state.cancelled = false
  indices : w.state.database.indices = indices
  consistent : w.arena.Consistent
  keeps : ∀ name ∈ w.arena.names, w.state.database.Keeps tables name

/-- After a failure, the documents are still the same, and nothing has been cancelled. -/
def invariant (tables : Table → Prop) (indices : List (String × List Document)) :
    Invariant Session where
  Holds := Undisturbed tables indices
  Survives := fun w => w.state.cancelled = false ∧ w.state.database.indices = indices
  survives := fun hw => ⟨hw.running, hw.indices⟩
  holds_scope := fun _ ⟨hrunning, hindices, hconsistent, hkeeps⟩ =>
    ⟨hrunning, hindices, hconsistent, hkeeps⟩
  survives_scope := fun _ h => h

/-- Nothing is registered at first, whatever tables are left over. -/
theorem undisturbed_start (db : Database) (scope : Source) :
    Undisturbed tables db.indices { state := ⟨db, false⟩, scope } :=
  ⟨rfl, rfl, Arena.consistent_empty, fun _ h => nomatch h⟩

theorem Undisturbed.agreesOn {w : World Session} {reads : Option String} {view : Database}
    (htables : Coherent tables) (hw : Undisturbed tables indices w)
    (hregistered : ∀ name ∈ reads, name ∈ w.arena.names)
    (hview : view.Shows tables indices reads) : w.state.database.AgreesOn reads view :=
  .of_keeps htables hw.indices (fun name hname => hw.keeps name (hregistered name hname)) hview

/-- What is known of the tables is what is read. -/
theorem query_gives (htables : Coherent tables) {w : World Session} {s : Statement}
    {view : Database} (hw : Undisturbed tables indices w) (hall : s.readsAll = true)
    (hregistered : ∀ name ∈ s.reads, name ∈ w.arena.names)
    (hview : view.Shows tables indices s.reads) :
    Run.Gives (invariant tables indices) (fun _ => False) w (query backend s)
      ((view.answer s).mapError fun e => .aggregation (.evaluation e)) := by
  have hanswer : w.state.database.answer s = view.answer s :=
    (hw.agreesOn htables hregistered hview).answer
  have hrun : run s w.state = ((view.answer s).mapError .evaluation, w.state) := by
    rw [run_of_read (Statement.isCommand_of_readsAll hall), hanswer]
  have hquery : (query backend s).within w = ((run s w.state).1.mapError .aggregation,
      { w with state := (run s w.state).2, log := ⟨s, failureOf (run s w.state).1⟩ :: w.log }) := rfl
  rw [hrun] at hquery
  refine ⟨.inl ?_, fun rows _ => ?_, ?_⟩
  · rw [hquery]
    cases view.answer s <;> rfl
  · rw [hquery]
    exact ⟨⟨hw.running, hw.indices, hw.consistent, hw.keeps⟩, rfl, List.Subset.refl _⟩
  · rw [hquery]
    exact ⟨hw.running, hw.indices⟩

/-- Once a table of its name that may be left over is dropped, a table is filled with the
rows that are known. -/
theorem Undisturbed.run_create (htables : Coherent tables) {w : World Session}
    (hw : Undisturbed tables indices w) {t : Table} {selection : Selection} {view : Database}
    (hrows : t.rows = view.fill t.name selection) (hfresh : t.name ∉ w.arena.names)
    (hregistered : ∀ name ∈ selection.reads, name ∈ w.arena.names)
    (hview : view.Shows tables indices selection.reads) :
    run (.create t.name selection)
        { w.state with database := w.state.database.dropTemporary t.name } =
      match t.rows with
      | .ok rows => (.ok [], { w.state with
          database := (w.state.database.dropTemporary t.name).addTemporary t.name rows })
      | .error e => (.error (.evaluation e),
          { w.state with database := w.state.database.dropTemporary t.name }) := by
  have hgone : (w.state.database.dropTemporary t.name).temporaryTable? t.name = none := by
    rw [Database.temporaryTable?_dropTemporary, if_pos rfl]
  -- what the selection reads is registered, so it is another table and still there
  have hagrees : (w.state.database.dropTemporary t.name).AgreesOn selection.reads view := by
    refine .of_keeps htables hw.indices (fun name hname => ?_) hview
    have hne : name ≠ t.name := fun h => hfresh (h ▸ hregistered name hname)
    exact (hw.keeps name (hregistered name hname)).dropTemporary hne
  rw [Session.run_create, hgone, hagrees.fill, ← hrows]
  rfl

/-- A table that is asked for is registered and filled. -/
theorem materialize_gives (htables : Coherent tables) {w : World Session} {t : Table}
    {selection : Selection} {view : Database} (hw : Undisturbed tables indices w) (ht : tables t)
    (hrows : t.rows = view.fill t.name selection)
    (hregistered : ∀ name ∈ selection.reads, name ∈ w.arena.names)
    (hview : view.Shows tables indices selection.reads) :
    Run.Gives (invariant tables indices) (fun _ => False) w
        ((materialize backend t.name selection).mapError .aggregation)
        ((t.rows.map fun _ => ()).mapError fun e => .aggregation (.evaluation e)) ∧
      ∀ after, ((materialize backend t.name selection).mapError ExecutionError.aggregation).within w =
        (.ok (), after) → t.name ∈ after.arena.names := by
  refine Run.Gives.materialize hw hw.consistent
    (fun hmem => (hw.keeps t.name hmem).rows_eq_ok htables ht) rfl fun hfresh => ?_
  have hcreate : backend.run (.create t.name selection) (backend.run (.drop t.name) w.state).2 = _ :=
    hw.run_create htables hrows hfresh hregistered hview
  have hnew : w.arena.registered.contains t.name = false := Arena.contains_eq_false hw.consistent hfresh
  simp only [World.filling, hcreate]
  cases hok : t.rows with
  | error e => exact ⟨.inl rfl, fun _ h => (nomatch h), hw.running, hw.indices⟩
  | ok rows =>
    refine ⟨.inl rfl, fun _ _ => ?_, hw.running, hw.indices⟩
    refine ⟨hw.running, hw.indices, hw.consistent.register hnew, fun name hmem => ?_⟩
    by_cases hne : name = t.name
    · rw [hne]
      exact Database.keeps_addTemporary _ ht hok
    · replace hmem : name ∈ (w.registering t.name).arena.names := hmem
      rw [World.names_registering hnew] at hmem
      have hkept := hw.keeps name ((List.mem_cons.mp hmem).resolve_left hne)
      exact (hkept.dropTemporary hne).addTemporary hne rows

/-- **A database that nobody else uses serves a walk**, and needs no excuse. -/
theorem serves (htables : Coherent tables) :
    Serves backend indices tables (invariant tables indices) fun _ => False where
  dialect := rfl
  check := fun {w} hw => by
    have hwithin : (checkCancelled backend).within w = (.ok (), w) := by
      rw [checkCancelled, Run.within_of]
      show (if w.state.cancelled = true then _ else _, w) = _
      rw [hw.running]
      rfl
    refine .of_world_eq ?_ ?_ hw
    · rw [hwithin]
    · rw [hwithin]
  read := fun hw hall hregistered hview => query_gives htables hw hall hregistered hview
  fill := fun hw ht hrows hregistered hview =>
    materialize_gives htables hw ht hrows hregistered hview

end Session

end DocSearch
