import DocSearch.Proofs.Store.Indices
import DocSearch.Proofs.Store.Scan
import Mathlib.Data.List.Induction
import Mathlib.Data.List.Nodup

/-!
# Databases and the calls that made them

A database that starts empty is determined by the calls that create indices and store
documents.  What it holds can be read off these calls: an index is there if one of them
named it, and under a key stands what was stored there last.

## Main definitions

* `StoreCall` — the calls that create an index or store a document.
* `Database.perform`, `Database.performAll` — what a call answers and leaves, and what
  several of them leave.
* `StoreCall.Named` — the indices that calls name.
* `StoreCall.stored?` — what calls have stored under a key.
* `Database.Follows` — a database holds what calls have stored.

## Main results

* `Database.perform_follows` — one more call.
* `Database.follows_performAll` — **a database holds what was stored last**.
-/

namespace DocSearch

open Members

/-- A call that creates an index or stores a document. -/
inductive StoreCall where
  /-- Create an index. -/
  | create (index : String)
  /-- Store a document. -/
  | put (index : String) (d : Document)

namespace StoreCall

/-- The index that a call names. -/
def index : StoreCall → String
  | create index => index
  | put index _ => index

/-- What a call stores in an index under a type and an identifier. -/
def body? (index docType id : String) : StoreCall → Option Json
  | create _ => none
  | put i d => if i = index ∧ d.docType = docType ∧ d.id = id then some d.body else none

/-- The documents of the index behind a call, given those before it. -/
def rows (old : List Document) : StoreCall → List Document
  | create _ => old
  | put _ d => old.filter (!d.sameKey ·) ++ [d]

/-- What a call answers, given the documents of the index before it. -/
def outcome (old : List Document) : StoreCall → Option IndexOutcome
  | create _ => none
  | put _ d => some (if old.any d.sameKey then .updated else .created)

/-- Calls name an index, and its name is allowed. -/
def Named (calls : List StoreCall) (index : String) : Prop :=
  Index.isValidName index = true ∧ ∃ call ∈ calls, call.index = index

/-- What calls have stored last in an index under a type and an identifier. -/
def stored? (calls : List StoreCall) (index docType id : String) : Option Json :=
  if Index.isValidName index then calls.reverse.findSome? (body? index docType id) else none

end StoreCall

namespace Database

/-- What a call answers and what it leaves; one that fails changes nothing. -/
def perform (db : Database) : StoreCall → Except StoreError (Option IndexOutcome) × Database
  | .create index =>
    match db.createIndex index with
    | .ok after => (.ok none, after)
    | .error e => (.error e, db)
  | .put index d =>
    match db.store index d with
    | .ok (outcome, after) => (.ok (some outcome), after)
    | .error e => (.error e, db)

/-- What several calls leave. -/
def performAll (db : Database) (calls : List StoreCall) : Database :=
  calls.foldl (fun db call => (db.perform call).2) db

/-- A database holds what calls have stored in it. -/
structure Follows (db : Database) (calls : List StoreCall) : Prop where
  /-- Each index is there once. -/
  nodup : (names db.indices).Nodup
  /-- The indices that were named are there. -/
  mem_names : ∀ index, index ∈ names db.indices ↔ StoreCall.Named calls index
  /-- No two documents of an index have the same key. -/
  keyed : db.IsKeyed
  /-- Under a key stands what was stored there last. -/
  mem_documents : ∀ index (d : Document), d ∈ (db.documents? index).getD [] ↔
    StoreCall.stored? calls index d.docType d.id = some d.body

end Database

/-! ### One more call -/

namespace StoreCall

variable {calls : List StoreCall} {call : StoreCall} {index docType id : String}

theorem stored?_of_invalid (h : Index.isValidName index = false) (calls : List StoreCall)
    (docType id : String) : stored? calls index docType id = none := by
  rw [stored?, h]
  rfl

theorem stored?_concat (h : Index.isValidName index = true) (calls : List StoreCall)
    (call : StoreCall) (docType id : String) :
    stored? (calls ++ [call]) index docType id =
      (call.body? index docType id).or (stored? calls index docType id) := by
  rw [stored?, stored?, h, List.reverse_append]
  simp only [if_true, List.reverse_singleton, List.singleton_append, List.findSome?_cons]
  cases call.body? index docType id with
  | none => rfl
  | some body => rfl

/-- A call stores nothing in another index. -/
theorem body?_of_ne (h : index ≠ call.index) : call.body? index docType id = none := by
  cases call with
  | create i => rfl
  | put i d => exact if_neg fun hkey => h hkey.1.symm

/-- What is stored in an index is not touched by a call that names another one. -/
theorem stored?_concat_of_ne (h : index ≠ call.index) :
    stored? (calls ++ [call]) index docType id = stored? calls index docType id := by
  cases hvalid : Index.isValidName index with
  | false => rw [stored?_of_invalid hvalid, stored?_of_invalid hvalid]
  | true => rw [stored?_concat hvalid, body?_of_ne h, Option.none_or]

theorem named_concat :
    Named (calls ++ [call]) index ↔
      Named calls index ∨ Index.isValidName index = true ∧ call.index = index := by
  simp only [Named, List.mem_append, List.mem_singleton, or_and_right, exists_or,
    exists_eq_left, ← and_or_left]

end StoreCall

namespace Database

variable {db after : Database} {calls : List StoreCall} {call : StoreCall}

/-- A call with a name that is not allowed fails and changes nothing. -/
theorem perform_of_invalid (db : Database) (h : Index.isValidName call.index = false) :
    db.perform call = (.error (.invalidIndexName call.index), db) := by
  cases call with
  | create index =>
    have hcreate : db.createIndex index = _ := createIndex_of_invalid db h
    simp only [perform, hcreate, StoreCall.index]
  | put index d =>
    have hstore : db.store index d = _ := store_of_invalid db h d
    simp only [perform, hstore, StoreCall.index]

/-- A call with an allowed name succeeds and writes its index. -/
theorem perform_of_valid (db : Database) (h : Index.isValidName call.index = true) :
    let old := (db.documents? call.index).getD []
    ∃ after, db.perform call = (.ok (call.outcome old), after) ∧
      db.Writes call.index (call.rows old) after := by
  cases call with
  | create index =>
    have hname : Index.isValidName index = true := h
    obtain ⟨after, hcreate, hwrites⟩ := createIndex_writes db hname
    refine ⟨after, ?_, hwrites⟩
    simp only [perform, hcreate, StoreCall.outcome]
  | put index d =>
    have hname : Index.isValidName index = true := h
    obtain ⟨after, hstore, hwrites⟩ := store_writes db hname d
    refine ⟨after, ?_, hwrites⟩
    simp only [perform, hstore]
    rfl

theorem perform_isKeyed (h : db.IsKeyed) (call : StoreCall) : (db.perform call).2.IsKeyed := by
  cases call with
  | create index =>
    rw [perform]
    split
    case h_1 after hcreate => exact createIndex_isKeyed h hcreate
    case h_2 => exact h
  | put index d =>
    rw [perform]
    split
    case h_1 outcome after hstore => exact store_isKeyed h hstore
    case h_2 => exact h

/-- A call that writes its index leaves what was stored, if the rows that it writes are
those that were stored. -/
theorem Follows.writes (h : db.Follows calls) (hvalid : Index.isValidName call.index = true)
    {rows : List Document} (hwrites : db.Writes call.index rows after) (hkeyed : after.IsKeyed)
    (hrows : ∀ d, d ∈ rows ↔ (call.body? call.index d.docType d.id).or
      (StoreCall.stored? calls call.index d.docType d.id) = some d.body) :
    after.Follows (calls ++ [call]) where
  nodup := by
    rw [hwrites.names]
    split
    case isTrue => exact h.nodup
    case isFalse hnew =>
      exact List.Nodup.append h.nodup (List.nodup_singleton _) (List.disjoint_singleton.mpr hnew)
  mem_names := fun index => by
    have hnames : index ∈ names after.indices ↔ index ∈ names db.indices ∨ index = call.index := by
      rw [hwrites.names]
      split
      case isTrue hmem =>
        exact ⟨.inl, fun hor => hor.elim id fun heq => heq ▸ hmem⟩
      case isFalse => rw [List.mem_append, List.mem_singleton]
    rw [hnames, h.mem_names, StoreCall.named_concat]
    refine or_congr_right ⟨fun heq => ⟨heq ▸ hvalid, heq.symm⟩, fun hcall => hcall.2.symm⟩
  keyed := hkeyed
  mem_documents := fun index d => by
    rw [hwrites.documents]
    split
    case isTrue heq =>
      rw [heq, StoreCall.stored?_concat hvalid]
      exact hrows d
    case isFalse hne =>
      rw [h.mem_documents, StoreCall.stored?_concat_of_ne hne]

/-- A call that is refused leaves what was stored. -/
theorem Follows.refused (h : db.Follows calls) (hinvalid : Index.isValidName call.index = false) :
    db.Follows (calls ++ [call]) where
  nodup := h.nodup
  mem_names := fun index => by
    rw [h.mem_names, StoreCall.named_concat, or_iff_left]
    rintro ⟨hvalid, rfl⟩
    exact nomatch hvalid.symm.trans hinvalid
  keyed := h.keyed
  mem_documents := fun index d => by
    rw [h.mem_documents]
    by_cases hindex : index = call.index
    · rw [hindex, StoreCall.stored?_of_invalid hinvalid, StoreCall.stored?_of_invalid hinvalid]
    · rw [StoreCall.stored?_concat_of_ne hindex]

/-- The documents behind a call are those that it stores, and those of another key. -/
theorem mem_rows {old : List Document} {stored : String → String → Option Json}
    (hold : ∀ d : Document, d ∈ old ↔ stored d.docType d.id = some d.body) (call : StoreCall)
    (d : Document) : d ∈ call.rows old ↔
      (call.body? call.index d.docType d.id).or (stored d.docType d.id) = some d.body := by
  cases call with
  | create index => exact hold d
  | put index e =>
    rw [StoreCall.rows, List.mem_append, List.mem_filter, List.mem_singleton, hold,
      Bool.not_eq_true']
    -- under the key of `e` only `e` itself is left, under any other all that was there
    by_cases hkey : e.docType = d.docType ∧ e.id = d.id
    · have hsame : e.sameKey d = true := by simp [Document.sameKey, hkey]
      have hbody : (StoreCall.put index e).body? index d.docType d.id = some e.body :=
        if_pos ⟨rfl, hkey⟩
      have heq : d = e ↔ e.body = d.body := by
        obtain ⟨docType, id, body⟩ := d
        obtain ⟨rfl, rfl⟩ := hkey
        refine ⟨fun h => (congrArg Document.body h).symm, fun h => ?_⟩
        obtain rfl : e.body = body := h
        rfl
      rw [hsame, StoreCall.index, hbody]
      simp [heq]
    · have hsame : e.sameKey d = false := by
        simpa [Document.sameKey] using hkey
      have hbody : (StoreCall.put index e).body? index d.docType d.id = none :=
        if_neg fun h => hkey h.2
      have hne : d ≠ e := fun heq => hkey (heq ▸ ⟨rfl, rfl⟩)
      rw [hsame, StoreCall.index, hbody, Option.none_or]
      simp [hne]

/-- **One more call** leaves what was stored and what it stores itself. -/
theorem perform_follows (h : db.Follows calls) (call : StoreCall) :
    (db.perform call).2.Follows (calls ++ [call]) := by
  cases hvalid : Index.isValidName call.index with
  | false =>
    rw [perform_of_invalid db hvalid]
    exact h.refused hvalid
  | true =>
    obtain ⟨after, hperform, hwrites⟩ := perform_of_valid db hvalid
    have hkeyed := perform_isKeyed h.keyed call
    rw [hperform] at hkeyed ⊢
    exact h.writes hvalid hwrites hkeyed (mem_rows (h.mem_documents call.index) call)

theorem follows_empty : empty.Follows [] where
  nodup := List.nodup_nil
  mem_names := fun index => by
    constructor
    · intro hmem
      cases hmem
    · rintro ⟨-, call, hcall, -⟩
      cases hcall
  keyed := isKeyed_empty
  mem_documents := fun index d => by
    have hnone : StoreCall.stored? [] index d.docType d.id = none := by
      rw [StoreCall.stored?]
      split <;> rfl
    rw [hnone]
    constructor
    · intro hmem
      cases hmem
    · intro hbody
      cases hbody

/-- **A database that starts empty holds what was stored last**, whatever is created and
stored in whatever order. -/
theorem follows_performAll (calls : List StoreCall) : (empty.performAll calls).Follows calls := by
  -- from the last call, which is the one that decides what stands under its key
  induction calls using List.reverseRecOn with
  | nil => exact follows_empty
  | append_singleton calls call ih =>
    rw [performAll, List.foldl_append]
    exact perform_follows ih call

end Database

end DocSearch
