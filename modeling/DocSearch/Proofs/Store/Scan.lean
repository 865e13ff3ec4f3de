import DocSearch.Proofs.Store.Soundness
import DocSearch.Store.Scan
import Mathlib.Data.List.Perm.Basic

/-!
# What a statement reads

A statement reads the selected documents of its source, in one way or another: from one
table with one plan, from several tables one after the other, or from several tables all
together, where everything is asked twice.  In each way, and unless something fails, the
documents that it comes upon are those that are selected and pass what is asked besides,
up to their order.

## Main definitions

* `Document.IsSelected` — a document has one of some types and meets a condition.
* `Source.selected` — the documents that a source selects.
* `Database.IsKeyed` — no two documents of an index have the same key.

## Main results

* `Database.candidates_perm`, `Database.eachInTurn_perm` — what is read is what is selected.
* `Database.store_isKeyed` — keys stay distinct when documents are stored.
-/

namespace DocSearch

open Sql Steps

/-! ### Selected documents -/

/-- A document has one of some types, if any are given, and meets a condition if there is
one. -/
def Document.IsSelected (types : List String) (filter : Option Condition) (d : Document) : Prop :=
  (types = [] ∨ d.docType ∈ types) ∧ ∀ c ∈ filter, c.IsTrue d

instance (types : List String) (filter : Option Condition) (d : Document) :
    Decidable (d.IsSelected types filter) :=
  inferInstanceAs (Decidable (_ ∧ _))

theorem Document.isSelected_iff {types : List String} {filter : Option Condition} {d : Document} :
    d.IsSelected types filter ↔ ∀ check ∈ sourceChecks types filter, check.Passes d := by
  have htypes : (types = [] ∨ d.docType ∈ types) ↔ ∀ check ∈ (if types.isEmpty then [] else
      [Check.meets (.test (.among "_type" (types.map .text)))]), check.Passes d := by
    cases types with
    | nil => simp
    | cons type types =>
      have hamong : (Check.meets (.test (.among "_type" ((type :: types).map .text)))).Passes d ↔
          d.docType ∈ type :: types := by
        show d.truth (.among "_type" ((type :: types).map .text)) = some true ↔ _
        rw [d.truth_among (show d.column? "_type" = some d.docType by simp [column?])]
        simp only [List.mem_map, exists_exists_and_eq_and, Cell.equals_text, exists_eq_right']
      simp only [List.isEmpty_cons, Bool.false_eq_true, if_false, List.forall_mem_singleton, hamong]
      simp
  have hfilter : (∀ c ∈ filter, c.IsTrue d) ↔
      ∀ check ∈ ((filter.map Condition.conjuncts).getD []).map Check.meets, check.Passes d := by
    cases filter with
    | none => simp
    | some c =>
      simp only [Option.mem_some_iff, forall_eq', Option.map_some, Option.getD_some,
        List.forall_mem_map]
      exact (Condition.forall_conjuncts c).symm
  rw [IsSelected, htypes, hfilter, sourceChecks, List.forall_mem_append]

/-- A document passes all of some checks. -/
def Document.PassesAll (d : Document) (checks : List Check) : Prop :=
  ∀ check ∈ checks, check.Passes d

instance (d : Document) (checks : List Check) : Decidable (d.PassesAll checks) :=
  inferInstanceAs (Decidable (∀ check ∈ checks, check.Passes d))

/-- The documents that a source selects. -/
def Source.selected (db : Database) : Source → List Document
  | .table name => ((db.temporaryTable? name).getD []).map (·.document)
  | .documents targets types filter => targets.flatMap fun t =>
      ((db.indexTable? t.table).getD []).filter fun d => d.IsSelected types filter

/-- No two documents of an index have the same key. -/
def Database.IsKeyed (db : Database) : Prop := ∀ e ∈ db.indices, KeyedRows e.2

theorem Database.IsKeyed.indexTable? {db : Database} (h : db.IsKeyed) {table : String}
    {docs : List Document} (hdocs : db.indexTable? table = some docs) : KeyedRows docs := by
  obtain ⟨e, he, rfl⟩ := Option.map_eq_some_iff.mp hdocs
  exact h e (List.mem_of_find?_eq_some he)

theorem Candidate.map_filter (cs : List Candidate) (p : Document → Bool) :
    (cs.filter fun c => p c.document).map (·.document) = (cs.map (·.document)).filter p :=
  List.filter_map.symm

/-! ### One table -/

namespace Plan

theorem Finds.perm {docs : List Document} {demands : List Demand} {plan : Plan}
    (h : Finds docs demands plan) (hdocs : KeyedRows docs) (hfailure : (plan.run docs).failure = none) :
    (plan.run docs).rows.Perm (docs.filter fun d => d.MeetsAll demands) := by
  obtain ⟨hnodup, hmem⟩ := h hfailure
  rw [List.perm_ext_iff_of_nodup hnodup (hdocs.nodup.filter _)]
  intro d
  rw [hmem, List.mem_filter, decide_eq_true_iff]

end Plan

namespace Database

variable {db : Database} {checks : List Check}

theorem targetRows_eq_ok {t : Target} {docs : List Document} (h : db.targetRows t = .ok docs) :
    db.indexTable? t.table = some docs := by
  rw [targetRows] at h
  split at h
  case h_1 docs' hdocs =>
    cases h
    exact hdocs
  case h_2 => cases h

/-- What a plan finds in the table of a target. -/
theorem ofTarget_perm (hdb : db.IsKeyed) {t : Target} {demands : List Demand} {plan : Plan}
    (hplan : ∀ docs, KeyedRows docs → Plan.Finds docs demands plan) {found : Found Candidate}
    (hfound : found = .ofExcept do return ofTarget t (plan.run (← db.targetRows t)))
    (hfailure : found.failure = none) :
    (found.rows.map (·.document)).Perm
      (((db.indexTable? t.table).getD []).filter fun d => d.MeetsAll demands) := by
  subst hfound
  obtain ⟨found, hok, hfound⟩ := Found.ofExcept_of_failure_eq_none hfailure
  rw [hfound] at hfailure ⊢
  obtain ⟨docs, hdocs, hrun⟩ := bind_eq_ok.mp hok
  rw [pure_eq_ok] at hrun
  subst hrun
  have htable := targetRows_eq_ok hdocs
  have hkeyed : KeyedRows docs := hdb.indexTable? htable
  rw [htable]
  simp only [ofTarget, Found.map, List.map_map]
  rw [show ((·.document) ∘ fun d => (⟨t.index, d⟩ : Candidate)) = id from rfl, List.map_id]
  exact (hplan docs hkeyed).perm hkeyed hfailure

theorem meetsAll_ofChecks {d : Document} :
    d.MeetsAll (Demand.ofChecks checks) ↔ d.PassesAll checks := Demand.forall_ofChecks

theorem planned_perm (hdb : db.IsKeyed) {g : Goal} {t : Target}
    (hfailure : (db.planned g checks t).failure = none) :
    ((db.planned g checks t).rows.map (·.document)).Perm
      (((db.indexTable? t.table).getD []).filter fun d => d.PassesAll checks) := by
  simp only [← meetsAll_ofChecks]
  exact ofTarget_perm hdb (fun docs hdocs =>
    Plan.finds_make hdocs g (Demand.anchored_ofChecks checks)) rfl hfailure

theorem inTarget_perm (hdb : db.IsKeyed) {demands : List Demand} (h : Demand.Anchored demands)
    {t : Target} (hfailure : (db.inTarget demands t).failure = none) :
    ((db.inTarget demands t).rows.map (·.document)).Perm
      (((db.indexTable? t.table).getD []).filter fun d => d.MeetsAll demands) :=
  ofTarget_perm hdb (fun _ hdocs => Plan.finds_make hdocs {} h) rfl hfailure

/-! ### Several tables -/

end Database

theorem Found.concat_of_failure_eq_none {α : Type} {searches : List (Found α)}
    (h : (Found.concat searches).failure = none) :
    (∀ x ∈ searches, x.failure = none) ∧
      (Found.concat searches).rows = searches.flatMap (·.rows) := by
  induction searches with
  | nil => exact ⟨by simp, rfl⟩
  | cons x searches ih =>
    obtain ⟨hx, hrest, hrows⟩ := Found.append_of_failure_eq_none h
    obtain ⟨hfailures, hrest⟩ := ih hrest
    refine ⟨List.forall_mem_cons.mpr ⟨hx, hfailures⟩, ?_⟩
    rw [List.flatMap_cons, ← hrest]
    exact hrows

namespace Database

variable {db : Database} {checks : List Check}

/-- What is found in several tables, one after the other. -/
theorem concat_inTarget_perm (hdb : db.IsKeyed) {demands : List Demand}
    (h : Demand.Anchored demands) {targets : List Target}
    (hfailure : (Found.concat (targets.map (db.inTarget demands))).failure = none) :
    ((Found.concat (targets.map (db.inTarget demands))).rows.map (·.document)).Perm
      (targets.flatMap fun t =>
        ((db.indexTable? t.table).getD []).filter fun d => d.MeetsAll demands) := by
  obtain ⟨hfailures, hrows⟩ := Found.concat_of_failure_eq_none hfailure
  rw [hrows, List.flatMap_map, List.map_flatMap]
  exact List.Perm.flatMap_left targets fun t ht =>
    inTarget_perm hdb h (hfailures _ (List.mem_map_of_mem ht))

theorem eachInTurn_perm (hdb : db.IsKeyed) {targets : List Target}
    (hfailure : (db.eachInTurn checks targets).failure = none) :
    ((db.eachInTurn checks targets).rows.map (·.document)).Perm
      (targets.flatMap fun t =>
        ((db.indexTable? t.table).getD []).filter fun d => d.PassesAll checks) := by
  simp only [← meetsAll_ofChecks]
  exact concat_inTarget_perm hdb (Demand.anchored_ofChecks checks) hfailure

/-- The demands that are not decided before any row. -/
def pendingDemands (checks : List Check) : List Demand :=
  (Demand.ofChecks checks).filter (not ∘ Demand.isDecided)

/-- These demands as they are handed down to several tables. -/
def settledDemands (checks : List Check) : List Demand :=
  (pendingDemands checks).reverse.map fun a => { a with settled := true }

theorem allTogether_eq (db : Database) (checks : List Check) (targets : List Target) :
    db.allTogether checks targets =
      if refusedBelow checks then .fail .tooDeep
      else .ofExcept do
        if ← Demand.decide ((Demand.ofChecks checks).filter Demand.isDecided) then
          return (Found.concat (targets.map (db.inTarget (settledDemands checks)))).filterM
            fun c => Demand.allHold c.document (pendingDemands checks)
        else return .empty := by
  simp only [allTogether, List.partition_eq_filter_filter, settledDemands, pendingDemands]

theorem anchored_settledDemands (checks : List Check) : Demand.Anchored (settledDemands checks) := by
  intro a ha field value hlookup
  obtain ⟨a, hpending, rfl⟩ := List.mem_map.mp ha
  rw [List.mem_reverse] at hpending
  obtain ⟨f, hf, hgiven, hfixed⟩ :=
    Demand.anchored_ofChecks checks a (List.mem_filter.mp hpending).1 field value hlookup
  have hpending : f ∈ pendingDemands checks :=
    List.mem_filter.mpr ⟨hf, by simp [Demand.isDecided_of_fixed? hgiven hfixed]⟩
  exact ⟨_, List.mem_map_of_mem (List.mem_reverse.mpr hpending), hgiven, hfixed⟩

theorem meetsAll_settledDemands {d : Document} :
    d.MeetsAll (settledDemands checks) ↔ d.MeetsAll (pendingDemands checks) := by
  rw [settledDemands, Document.MeetsAll, List.forall_mem_map]
  simp only [List.mem_reverse]
  exact Iff.rfl

theorem meetsAll_pendingDemands {d : Document}
    (hdecided : d.MeetsAll ((Demand.ofChecks checks).filter Demand.isDecided)) :
    d.MeetsAll (pendingDemands checks) ↔ d.PassesAll checks := by
  rw [← meetsAll_ofChecks]
  constructor
  · intro h a ha
    cases hisDecided : a.isDecided with
    | true => exact hdecided a (List.mem_filter.mpr ⟨ha, hisDecided⟩)
    | false => exact h a (List.mem_filter.mpr ⟨ha, by simp [hisDecided]⟩)
  · exact fun h a ha => h a (List.mem_filter.mp ha).1

/-- What is found in several tables all together: what was asked in each of them is asked
once more, which changes nothing. -/
theorem allTogether_perm (hdb : db.IsKeyed) {targets : List Target}
    (hfailure : (db.allTogether checks targets).failure = none) :
    ((db.allTogether checks targets).rows.map (·.document)).Perm
      (targets.flatMap fun t =>
        ((db.indexTable? t.table).getD []).filter fun d => d.PassesAll checks) := by
  rw [allTogether_eq] at hfailure ⊢
  split at hfailure
  case isTrue => cases hfailure
  case isFalse hrefused =>
    rw [if_neg hrefused]
    obtain ⟨found, hok, hfound⟩ := Found.ofExcept_of_failure_eq_none hfailure
    rw [hfound] at hfailure ⊢
    obtain ⟨b, hb, hok⟩ := bind_eq_ok.mp hok
    have hdecided := fun d => (Demand.anchored_ofChecks checks).meetsAll_decided hb d
    cases b with
    | false =>
      -- nothing is found, and nothing is selected
      cases hok
      have hnone : ∀ d : Document, ¬ d.PassesAll checks := fun d hd =>
        nomatch (hdecided d).mp fun a ha => meetsAll_ofChecks.mpr hd a (List.mem_filter.mp ha).1
      simp [Found.empty, Found.ofList, hnone]
    | true =>
      cases hok
      have hpending : ∀ d : Document, d.MeetsAll (pendingDemands checks) ↔ d.PassesAll checks :=
        fun d => meetsAll_pendingDemands ((hdecided d).mpr rfl)
      obtain ⟨hconcat, hrows⟩ := Found.filterM_of_failure_eq_none hfailure
        fun c b hb => show decide (c.document.PassesAll checks) = b by
          rw [Bool.eq_iff_iff, decide_eq_true_iff, ← hpending]
          exact Demand.passes_iff_of_allHold hb
      have hfound := concat_inTarget_perm hdb (anchored_settledDemands checks) hconcat
      simp only [meetsAll_settledDemands, hpending] at hfound
      rw [hrows, Candidate.map_filter _ fun d => decide (d.PassesAll checks)]
      refine (hfound.filter _).trans (List.Perm.of_eq ?_)
      rw [List.filter_flatMap]
      simp only [List.filter_filter, Bool.and_self]

/-! ### Sources -/

/-- The documents of a temporary table that pass some checks. -/
theorem inTemporary_rows {name : String}
    (hfailure : (db.inTemporary name checks).failure = none) :
    (db.inTemporary name checks).rows.map (·.document) =
      ((Source.table name).selected db).filter fun d => d.PassesAll checks := by
  rw [inTemporary] at hfailure ⊢
  cases htable : db.temporaryTable? name with
  | none =>
    rw [htable] at hfailure
    cases hfailure
  | some rows =>
    rw [htable] at hfailure
    obtain ⟨-, hrows⟩ := Found.filterM_of_failure_eq_none hfailure
      fun c b hb => show decide (c.document.PassesAll checks) = b by
        rw [Bool.eq_iff_iff, decide_eq_true_iff, ← Demand.passes_iff_of_allHold hb,
          List.forall_mem_map]
        simp only [Demand.passes_of_given_eq_nil]
        exact Iff.rfl
    rw [show _ = _ from hrows, Candidate.map_filter _ fun d => decide (d.PassesAll checks),
      Source.selected, htable]
    exact congrArg (List.filter _) (List.map_map ..)

/-! ### Sources -/

/-- **What a statement reads** of a source are the documents that are selected and pass
what it asks besides. -/
theorem candidates_perm (hdb : db.IsKeyed) {goal : Goal} {fields : List String}
    {extra : List Check} {source : Source}
    (hfailure : (db.candidates goal fields extra source).failure = none) :
    ((db.candidates goal fields extra source).rows.map (·.document)).Perm
      ((source.selected db).filter fun d => d.PassesAll extra) := by
  cases source with
  | table name => exact List.Perm.of_eq (inTemporary_rows hfailure)
  | documents targets types filter =>
    have hselected : ((Source.documents targets types filter).selected db).filter
        (fun d => d.PassesAll extra) = targets.flatMap fun t =>
          ((db.indexTable? t.table).getD []).filter fun d =>
            d.PassesAll (sourceChecks types filter ++ extra) := by
      rw [Source.selected, List.filter_flatMap]
      refine congrArg (fun f => targets.flatMap f) (funext fun t => ?_)
      rw [List.filter_filter]
      refine List.filter_congr fun d _ => ?_
      rw [Bool.eq_iff_iff, Bool.and_eq_true, decide_eq_true_iff, decide_eq_true_iff,
        decide_eq_true_iff, Document.isSelected_iff, and_comm]
      exact List.forall_mem_append.symm
    rw [hselected]
    -- one table is looked through by a plan of its own; several are joined, and tested afterwards
    match targets, hfailure with
    | [], _ => exact List.Perm.nil
    | [t], hfailure =>
      have hplanned := planned_perm hdb
        (g := { goal with onlyKeys := needsOnlyKeys fields (sourceChecks types filter ++ extra) })
        hfailure
      rw [List.flatMap_singleton]
      exact hplanned
    | t :: t' :: targets, hfailure => exact allTogether_perm hdb hfailure

theorem passesAll_nil {d : Document} : d.PassesAll [] := fun _ h => nomatch h

/-- The documents of a source, each table looked through by itself. -/
theorem eachInTurn_selected (hdb : db.IsKeyed) {targets : List Target} {types : List String}
    {filter : Option Condition}
    (hfailure : (db.eachInTurn (sourceChecks types filter) targets).failure = none) :
    ((db.eachInTurn (sourceChecks types filter) targets).rows.map (·.document)).Perm
      ((Source.documents targets types filter).selected db) := by
  simp only [Source.selected, Document.isSelected_iff]
  exact eachInTurn_perm hdb hfailure

/-! ### Keys stay distinct -/

theorem isKeyed_empty : Database.empty.IsKeyed := fun _ he => nomatch he

theorem createIndex_isKeyed {index : String} {after : Database} (hdb : db.IsKeyed)
    (h : db.createIndex index = .ok after) : after.IsKeyed := by
  obtain ⟨table, -, h⟩ := bind_eq_ok.mp h
  rw [pure_eq_ok] at h
  subst h
  split
  case isTrue => exact hdb
  case isFalse =>
    intro e he
    rcases List.mem_append.mp he with he | he
    · exact hdb e he
    · rw [List.mem_singleton.mp he]
      exact List.Pairwise.nil

theorem keyedRows_replace {rows : List Document} (h : KeyedRows rows) (d : Document) :
    KeyedRows (rows.filter (!d.sameKey ·) ++ [d]) := by
  refine List.pairwise_append.mpr ⟨h.filter _, List.pairwise_singleton _ d, fun e he e' he' => ?_⟩
  rw [List.mem_singleton.mp he', Document.sameKey_comm]
  simpa using (List.mem_filter.mp he).2

theorem mem_put {α : Type} {name : String} {value : α} {members : List (String × α)}
    {e : String × α} (h : e ∈ Members.put name value members) : e.2 = value ∨ e ∈ members := by
  induction members with
  | nil =>
    rw [Members.put_nil, List.mem_singleton] at h
    exact .inl (congrArg Prod.snd h)
  | cons m members ih =>
    rw [Members.put] at h
    split at h
    case isTrue =>
      rcases List.mem_cons.mp h with h | h
      · exact .inl (congrArg Prod.snd h)
      · exact .inr (List.mem_cons_of_mem _ h)
    case isFalse =>
      rcases List.mem_cons.mp h with h | h
      · exact .inr (h ▸ List.mem_cons_self)
      · exact (ih h).imp_right (List.mem_cons_of_mem _)

/-- **Keys stay distinct** when a document is stored. -/
theorem store_isKeyed {index : String} {d : Document} {outcome : IndexOutcome} {after : Database}
    (hdb : db.IsKeyed) (h : db.store index d = .ok (outcome, after)) : after.IsKeyed := by
  obtain ⟨created, hcreated, h⟩ := bind_eq_ok.mp h
  rw [pure_eq_ok, Prod.mk.injEq] at h
  obtain ⟨-, rfl⟩ := h
  have hkeyed : created.IsKeyed := createIndex_isKeyed hdb hcreated
  have hrows : KeyedRows ((created.documents? index).getD []) := by
    cases hdocs : created.documents? index with
    | none => exact List.Pairwise.nil
    | some rows =>
      obtain ⟨before, behind, hindices, -⟩ := List.lookup_eq_some_iff.mp hdocs
      exact hkeyed (index, rows) (by rw [hindices]; simp)
  intro e he
  rcases mem_put he with heq | hmem
  · rw [heq]
    exact keyedRows_replace hrows d
  · exact hkeyed e hmem

end Database

end DocSearch
