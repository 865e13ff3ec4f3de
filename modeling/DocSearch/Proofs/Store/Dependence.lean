import DocSearch.Store.Answer

/-!
# What answers depend on

The answer to a statement depends on the documents of the indices and on at most one
temporary table, the one that the statement reads.  If this table is not there, there is
no answer.

## Main definitions

* `Statement.reads` — the temporary table that a statement reads, if it reads one.
* `Database.AgreesOn` — two databases have the same indices and the same table.
* `Database.fill` — the rows that fill a table, unless the statement is refused.
* `Database.withOnly` — a database with no temporary table but one.

## Main results

* `Database.AgreesOn.answer`, `Database.AgreesOn.fill` — then they give the same.
* `Database.answer_of_missing`, `Database.fill_of_missing` — nothing is read from a table
  that is not there.
-/

namespace DocSearch

/-- The temporary table that a source reads, if it reads one. -/
def Source.reads : Source → Option String
  | table name => some name
  | documents _ _ _ => none

/-- The temporary table that a selection reads, if it reads one. -/
def Selection.reads : Selection → Option String
  | bucketed _ source => source.reads
  | bucket table _ => some table
  | verbatim _ => none

/-- The temporary table that a statement reads, if it reads one. -/
def Statement.reads : Statement → Option String
  | metric _ _ source | histogram _ source | count source | page source _ _ _ => source.reads
  | buckets table => some table
  | drop _ => none
  | create _ selection => selection.reads

/-- Whether a statement needs all rows that it reads. -/
def Statement.readsAll : Statement → Bool
  | metric _ _ _ | histogram _ _ | buckets _ | count _ => true
  | _ => false

theorem Statement.isCommand_of_readsAll {s : Statement} (h : s.readsAll = true) :
    s.isCommand = false := by
  cases s <;> first | rfl | cases h

namespace Database

/-- The rows that a selection puts into a table, unless this is refused or fails. -/
def fill (db : Database) (name : String) (selection : Selection) :
    Except EvaluationError (List TemporaryRow) :=
  match (Statement.create name selection).refusal? with
  | some e => .error e
  | none => db.select selection

/-- Two databases have the same indices, and the same rows in a temporary table. -/
structure AgreesOn (table : Option String) (db db' : Database) : Prop where
  indices : db.indices = db'.indices
  temporary : ∀ name ∈ table, db.temporaryTable? name = db'.temporaryTable? name

variable {db db' : Database}

theorem AgreesOn.candidates {source : Source} (h : AgreesOn source.reads db db') (goal : Goal)
    (fields : List String) (extra : List Check) :
    db.candidates goal fields extra source = db'.candidates goal fields extra source := by
  obtain ⟨indices, temporary⟩ := db
  obtain ⟨indices', temporary'⟩ := db'
  obtain ⟨rfl, htable⟩ := h
  cases source with
  | table name => rw [Database.candidates, Database.candidates, inTemporary, inTemporary, htable name rfl]
  | documents targets types filter =>
    match targets with
    | [] => rfl
    | [t] => rfl
    | _ :: _ :: _ => rfl

theorem AgreesOn.pageRows {source : Source} (h : AgreesOn source.reads db db')
    (clauses : List SortClause) (size offset : Int64) :
    db.pageRows clauses size offset source = db'.pageRows clauses size offset source := by
  obtain ⟨indices, temporary⟩ := db
  obtain ⟨indices', temporary'⟩ := db'
  obtain ⟨rfl, htable⟩ := h
  cases source with
  | table name => rw [Database.pageRows, Database.pageRows, inTemporary, inTemporary, htable name rfl]
  | documents targets types filter => rfl

theorem AgreesOn.answer {s : Statement} (h : AgreesOn s.reads db db') : db.answer s = db'.answer s := by
  have hread : db.read s = db'.read s := by
    cases s with
    | metric m field source =>
      have h : AgreesOn source.reads db db' := h
      simp only [read, h.candidates]
    | histogram key source =>
      have h : AgreesOn source.reads db db' := h
      simp only [read, h.candidates]
    | buckets table => simp only [read, h.temporary table rfl]
    | count source =>
      have h : AgreesOn source.reads db db' := h
      simp only [read, h.candidates]
    | page source sort size offset =>
      have h : AgreesOn source.reads db db' := h
      simp only [read, h.pageRows]
    | drop table => rfl
    | create table selection => rfl
  rw [Database.answer, Database.answer, hread]

theorem AgreesOn.select {selection : Selection} (h : AgreesOn selection.reads db db') :
    db.select selection = db'.select selection := by
  cases selection with
  | bucketed key source =>
    obtain ⟨indices, temporary⟩ := db
    obtain ⟨indices', temporary'⟩ := db'
    obtain ⟨rfl, htable⟩ := h
    cases source with
    | table name => simp only [Database.select, inTemporary, htable name rfl]
    | documents targets types filter => rfl
  | bucket table key => simp only [Database.select, h.temporary table rfl]
  | verbatim sql => rfl

theorem AgreesOn.fill {selection : Selection} (h : AgreesOn selection.reads db db')
    (name : String) : db.fill name selection = db'.fill name selection := by
  rw [Database.fill, Database.fill, h.select]

/-! ### Missing tables -/

theorem candidates_of_missing {source : Source} {name : String} (hreads : source.reads = some name)
    (hmissing : db.temporaryTable? name = none) (goal : Goal) (fields : List String)
    (extra : List Check) : db.candidates goal fields extra source = .fail (.noSuchTable name) := by
  cases source with
  | table table =>
    cases hreads
    rw [Database.candidates, inTemporary, hmissing]
  | documents targets types filter => cases hreads

/-- **No statement reads all rows of a table that is not there.** -/
theorem answer_of_missing {s : Statement} {name : String} (hreads : s.reads = some name)
    (hall : s.readsAll = true) (hmissing : db.temporaryTable? name = none) :
    ∃ e, db.answer s = .error e := by
  have hread : db.read s = .error (.noSuchTable name) := by
    cases s with
    | metric m field source =>
      rw [read, candidates_of_missing hreads hmissing]
      rfl
    | histogram key source =>
      rw [read, candidates_of_missing hreads hmissing]
      rfl
    | buckets table =>
      cases hreads
      rw [read, hmissing]
    | count source =>
      rw [read, candidates_of_missing hreads hmissing]
      rfl
    | page source sort size offset => cases hall
    | drop table => cases hall
    | create table selection => cases hall
  rw [answer, Statement.isCommand_of_readsAll hall, hread]
  cases s.refusal? with
  | some e => exact ⟨e, rfl⟩
  | none => exact ⟨_, rfl⟩

theorem fill_of_missing {selection : Selection} {name : String}
    (hreads : selection.reads = some name) (hmissing : db.temporaryTable? name = none)
    (table : String) : ∃ e, db.fill table selection = .error e := by
  have hselect : ∃ e, db.select selection = .error e := by
    refine ⟨.noSuchTable name, ?_⟩
    cases selection with
    | bucketed key source =>
      cases source with
      | table table =>
        cases hreads
        rw [select, inTemporary, hmissing]
        rfl
      | documents targets types filter => cases hreads
    | bucket table key =>
      cases hreads
      rw [select, hmissing]
    | verbatim sql => cases hreads
  rw [fill]
  cases (Statement.create table selection).refusal? with
  | some e => exact ⟨e, rfl⟩
  | none => exact hselect

/-! ### Statements over one table -/

/-- A database with no temporary table but one. -/
def withOnly (db : Database) (name : String) (rows : List TemporaryRow) : Database :=
  { db with temporary := [(name, rows)] }

@[simp] theorem temporaryTable?_withOnly (db : Database) (name : String)
    (rows : List TemporaryRow) : (db.withOnly name rows).temporaryTable? name = some rows := by
  simp [withOnly, temporaryTable?]

theorem refusal?_table {s : Statement} {name : String}
    (hsource : s.source?.getD (.table "") = .table name) (horder : s.orderTerms = 0)
    (hjoined : s.joinedTo = []) : s.refusal? = none := by
  rw [Statement.refusal?, hsource, horder, hjoined]
  rfl

theorem answer_buckets {name : String} {rows : List TemporaryRow}
    (h : db.temporaryTable? name = some rows) :
    db.answer (.buckets name) =
      .ok ((distinctKeys (rows.filterMap (·.bucket))).map fun key => [.integer key]) := by
  rw [answer, refusal?_table rfl rfl rfl]
  simp [Statement.isCommand, read, h]

theorem filterM_ok_true {α : Type} (x : Found α) : x.filterM (fun _ => .ok true) = x := by
  obtain ⟨rows, failure⟩ := x
  induction rows with
  | nil => rfl
  | cons a rows ih =>
    have hrest : Found.ofRows (fun a => Except.ok (some a)) failure rows = ⟨rows, failure⟩ := ih
    show (Found.ofRows (fun a => Except.ok (some a)) failure rows).cons a = _
    rw [hrest]
    rfl

theorem inTemporary_nil {name : String} {rows : List TemporaryRow}
    (h : db.temporaryTable? name = some rows) :
    db.inTemporary name [] = .ofList (rows.map fun r => ⟨"", r.document⟩) := by
  rw [inTemporary, h]
  exact filterM_ok_true _

theorem answer_count_table {name : String} {rows : List TemporaryRow}
    (h : db.temporaryTable? name = some rows) :
    db.answer (.count (.table name)) = .ok [[.integer (Int64.ofNat rows.length)]] := by
  rw [answer, refusal?_table rfl rfl rfl]
  simp only [Statement.isCommand, read, Database.candidates, inTemporary_nil h]
  simp [Found.toExcept, Found.ofList, bind, Except.bind, pure, Except.pure]

theorem fill_bucket {table name : String} {rows : List TemporaryRow} (key : Int64)
    (h : db.temporaryTable? name = some rows) :
    db.fill table (.bucket name key) =
      .ok ((rows.filter fun r => r.bucket == some key).map fun r => ⟨none, r.document⟩) := by
  rw [fill, refusal?_table rfl rfl rfl]
  simp [select, h]

end Database

end DocSearch
