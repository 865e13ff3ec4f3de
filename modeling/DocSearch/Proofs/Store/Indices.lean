import DocSearch.Proofs.Steps
import DocSearch.Store.Database
import Mathlib.Data.String.Basic

/-!
# The indices of a database

An index is created under its name unless it is there, and its table is found by that
name.  A name that is not allowed is refused before anything is looked at.

## Main definitions

* `Database.Writes` — one index gets other documents, and is there.

## Main results

* `Database.createIndex_of_invalid`, `Database.store_of_invalid` — names that are refused.
* `Database.createIndex_writes`, `Database.store_writes` — **creating an index and storing a
  document succeed under an allowed name**, and change this index only.
* `Database.tableFor_of_valid` — the table of an index.
* `Database.listIndices_pairwise`, `Database.mem_listIndices` — the indices are listed in
  strictly ascending order.
-/

namespace DocSearch

open Members

theorem Members.isSome_lookup {α : Type} {name : String} {members : List (String × α)} :
    (members.lookup name).isSome = true ↔ name ∈ names members := by
  induction members with
  | nil => simp [names]
  | cons m members ih =>
    obtain ⟨key, value⟩ := m
    rw [lookup_cons, names, List.map_cons, List.mem_cons]
    by_cases h : name = key
    · simp [h]
    · rw [if_neg h, ih]
      exact ⟨.inr, fun hmem => hmem.resolve_left h⟩

/-! ### Names -/

theorem Index.tableName_of_invalid {index : String} (h : Index.isValidName index = false) :
    Index.tableName index = .error (.invalidIndexName index) := by
  rw [Index.tableName, h]
  rfl

theorem Index.tableName_of_valid {index : String} (h : Index.isValidName index = true) :
    Index.tableName index = .ok (Index.tablePrefix ++ index) := by
  rw [Index.tableName, h]
  rfl

/-- Indices with different names have different tables. -/
theorem Index.tablePrefix_append_inj {index other : String} :
    Index.tablePrefix ++ index = Index.tablePrefix ++ other ↔ index = other := by
  constructor
  · intro h
    have hlist := congrArg String.toList h
    rw [String.toList_append, String.toList_append, List.append_cancel_left_eq] at hlist
    exact String.toList_inj.mp hlist
  · rintro rfl
    rfl

namespace Database

variable {db after : Database} {index : String}

/-- Whether an index is there. -/
theorem isSome_documents? : (db.documents? index).isSome = true ↔ index ∈ names db.indices :=
  isSome_lookup

/-- The documents of an index are the rows of its table. -/
theorem indexTable?_tablePrefix (db : Database) (index : String) :
    db.indexTable? (Index.tablePrefix ++ index) = db.documents? index := by
  rw [indexTable?, documents?]
  induction db.indices with
  | nil => rfl
  | cons e indices ih =>
    obtain ⟨name, docs⟩ := e
    rw [lookup_cons, List.find?_cons]
    by_cases h : index = name
    · simp [h]
    · have hne : (Index.tablePrefix ++ name == Index.tablePrefix ++ index) = false :=
        beq_eq_false_iff_ne.mpr fun heq => h (Index.tablePrefix_append_inj.mp heq).symm
      simp only [if_neg h, hne]
      exact ih

/-! ### Creating and storing -/

/-- The index gets the documents `rows`, and is there; the others stay as they are. -/
structure Writes (db : Database) (index : String) (rows : List Document) (after : Database) :
    Prop where
  /-- The documents of each index. -/
  documents : ∀ other, after.documents? other =
    if other = index then some rows else db.documents? other
  /-- The indices that are there. -/
  names : names after.indices =
    if index ∈ names db.indices then names db.indices else names db.indices ++ [index]

theorem createIndex_of_invalid (db : Database) (h : Index.isValidName index = false) :
    db.createIndex index = .error (.invalidIndexName index) := by
  rw [createIndex, Index.tableName_of_invalid h]
  rfl

theorem createIndex_of_mem (h : Index.isValidName index = true) (hmem : index ∈ names db.indices) :
    db.createIndex index = .ok db := by
  rw [createIndex, Index.tableName_of_valid h]
  simp only [isSome_documents?.mpr hmem, if_true]
  rfl

theorem createIndex_of_notMem (h : Index.isValidName index = true)
    (hnew : index ∉ names db.indices) :
    db.createIndex index = .ok { db with indices := db.indices ++ [(index, [])] } := by
  rw [createIndex, Index.tableName_of_valid h]
  simp only [isSome_documents?.not.mpr hnew, Bool.false_eq_true, if_false]
  rfl

/-- An index is there once it has been created, with the documents that it had. -/
theorem createIndex_writes (db : Database) (h : Index.isValidName index = true) :
    ∃ after, db.createIndex index = .ok after ∧
      db.Writes index ((db.documents? index).getD []) after := by
  by_cases hmem : index ∈ Members.names db.indices
  · refine ⟨db, createIndex_of_mem h hmem, fun other => ?_, (if_pos hmem).symm⟩
    obtain ⟨docs, hdocs⟩ := Option.isSome_iff_exists.mp (isSome_documents?.mpr hmem)
    split
    case isTrue heq =>
      rw [heq, hdocs]
      rfl
    case isFalse => rfl
  · refine ⟨_, createIndex_of_notMem h hmem, fun other => ?_, ?_⟩
    · have hnone : db.documents? index = none :=
        Option.not_isSome_iff_eq_none.mp (isSome_documents?.not.mpr hmem)
      simp only [documents?, List.lookup_append, lookup_cons]
      split
      case isTrue heq =>
        rw [heq, show db.indices.lookup index = none from hnone]
        rfl
      case isFalse => exact Option.or_none
    · rw [if_neg hmem]
      simp [Members.names]

theorem store_of_invalid (db : Database) (h : Index.isValidName index = false) (d : Document) :
    db.store index d = .error (.invalidIndexName index) := by
  rw [store, createIndex_of_invalid db h]
  rfl

/-- A document is stored behind those of its index that have another key. -/
theorem store_writes (db : Database) (h : Index.isValidName index = true) (d : Document) :
    let rows := (db.documents? index).getD []
    ∃ after, db.store index d = .ok (if rows.any d.sameKey then .updated else .created, after) ∧
      db.Writes index (rows.filter (!d.sameKey ·) ++ [d]) after := by
  intro rows
  obtain ⟨created, hcreate, hcreated⟩ := createIndex_writes db h
  have hrows : (created.documents? index).getD [] = rows := by
    rw [hcreated.documents, if_pos rfl]
    rfl
  have hthere : index ∈ Members.names created.indices := by
    rw [hcreated.names]
    split
    case isTrue hmem => exact hmem
    case isFalse => exact List.mem_append_right _ List.mem_cons_self
  refine ⟨{ created with indices := put index (rows.filter (!d.sameKey ·) ++ [d]) created.indices },
    ?_, fun other => ?_, ?_⟩
  · rw [store, hcreate]
    simp only [bind, Except.bind, hrows]
    rfl
  · simp only [documents?, lookup_put]
    split
    case isTrue => rfl
    case isFalse hne => exact (hcreated.documents other).trans (if_neg hne)
  · rw [names_put, if_pos hthere, hcreated.names]

/-! ### What is there -/

theorem tableFor_of_invalid (db : Database) (h : Index.isValidName index = false) :
    db.tableFor index = .error (.invalidIndexName index) := by
  rw [tableFor, Index.tableName_of_invalid h]
  rfl

theorem tableFor_of_valid (db : Database) (h : Index.isValidName index = true) :
    db.tableFor index = .ok (if index ∈ names db.indices then some (Index.tablePrefix ++ index)
      else none) := by
  rw [tableFor, Index.tableName_of_valid h]
  simp only [isSome_documents?]
  rfl

/-- Looking an index up fails for its name only. -/
theorem eq_of_tableFor_eq_error {e : StoreError} (h : db.tableFor index = .error e) :
    e = .invalidIndexName index := by
  cases hvalid : Index.isValidName index with
  | false =>
    rw [tableFor_of_invalid db hvalid] at h
    exact (Except.error.inj h).symm
  | true =>
    rw [tableFor_of_valid db hvalid] at h
    cases h

/-- An index with a table is there. -/
theorem mem_of_tableFor_eq_some {table : String} (h : db.tableFor index = .ok (some table)) :
    index ∈ names db.indices := by
  cases hvalid : Index.isValidName index with
  | false =>
    rw [tableFor_of_invalid db hvalid] at h
    cases h
  | true =>
    by_contra hnew
    rw [tableFor_of_valid db hvalid, if_neg hnew] at h
    cases h

theorem mem_listIndices : index ∈ db.listIndices ↔ index ∈ names db.indices :=
  List.mem_mergeSort

/-- **The indices are listed in strictly ascending order** if they have different names. -/
theorem listIndices_pairwise (h : (names db.indices).Nodup) :
    db.listIndices.Pairwise (· < ·) := by
  have hsorted : db.listIndices.Pairwise fun a b => (!decide (b < a)) = true := by
    refine List.pairwise_mergeSort (fun a b c hab hbc => ?_) (fun a b => ?_) _
    · simp only [Bool.not_eq_true', decide_eq_false_iff_not, not_lt] at hab hbc ⊢
      exact hab.trans hbc
    · simp only [Bool.or_eq_true, Bool.not_eq_true', decide_eq_false_iff_not, not_lt]
      exact le_total a b
  have hnodup : db.listIndices.Nodup := (List.mergeSort_perm _ _).nodup_iff.mpr h
  refine (hsorted.and hnodup).imp fun {a b} hab => ?_
  obtain ⟨hle, hne⟩ := hab
  simp only [Bool.not_eq_true', decide_eq_false_iff_not, not_lt] at hle
  exact lt_of_le_of_ne hle hne

end Database

end DocSearch
