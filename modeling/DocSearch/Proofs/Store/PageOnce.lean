import DocSearch.Proofs.Store.Parts
import DocSearch.Proofs.Store.WholePage
import Mathlib.Data.List.Nodup

/-!
# Pages that show nothing twice

However the rows of a page are found, in one table or in several, all at once or run by run,
merged, in blocks or sorted at the end, and whatever fails behind the last of them, no document
is shown twice.  Every step from the tables to the page passes on a part of what it is given.
Only a plan for clauses joined by `OR` comes upon documents again, and it passes over what an
earlier clause has found.

## Main definitions

* `Database.shownRows` — the rows of a page for all documents of some targets.

## Main results

* `Plan.run_subperm`, `Plan.runs_subperm` — **no plan finds a document twice**.
* `Database.read_page_subperm` — **no page shows a document twice**.
-/

namespace DocSearch

open Sql Steps

/-! ### Plans -/

namespace Plan

variable {docs : List Document}

theorem rows_ask_sublist (asked : List Demand) (x : Found Document) :
    (ask asked x).rows.Sublist x.rows := Found.rows_filterM_sublist _ x

/-- What is decided beforehand leaves everything or nothing. -/
theorem rows_ifDecided (decided : List Demand) (x : Found Document) :
    (ifDecided decided x).rows = x.rows ∨ (ifDecided decided x).rows = [] := by
  rw [ifDecided]
  cases Demand.decide decided with
  | error e => exact .inr rfl
  | ok b =>
    cases b with
    | true => exact .inl rfl
    | false => exact .inr rfl

theorem rows_ifDecided_sublist (decided : List Demand) (x : Found Document) :
    (ifDecided decided x).rows.Sublist x.rows := by
  rcases rows_ifDecided decided x with h | h <;> rw [h]
  exact List.nil_sublist _

theorem lookUp_subperm (tests : List Test) (reversed : Bool) (docs : List Document) :
    (lookUp tests reversed docs).Subperm docs := by
  have hrows : (inKeyOrder (docs.filter fun d => tests.all d.satisfies)).Subperm docs :=
    (List.mergeSort_perm _ _).subperm.trans List.filter_sublist.subperm
  cases reversed with
  | false => exact hrows
  | true => exact (List.reverse_perm _).subperm.trans hrows

mutual

/-- No plan finds a row twice, or one that is not there. -/
theorem nodup_run (hdocs : docs.Nodup) : ∀ plan : Plan,
    (plan.run docs).rows.Nodup ∧ (plan.run docs).rows ⊆ docs
  | table decided asked => by
    have hrows := (rows_ifDecided_sublist decided _).trans (rows_ask_sublist asked (.ofList docs))
    rw [run]
    exact ⟨hrows.nodup hdocs, hrows.subset⟩
  | index decided tests reversed asked => by
    obtain ⟨rows, hperm, hsub⟩ := lookUp_subperm tests reversed docs
    have hrows := (rows_ifDecided_sublist decided _).trans
      (rows_ask_sublist asked (.ofList (lookUp tests reversed docs)))
    rw [run]
    exact ⟨hrows.nodup (hperm.nodup_iff.mp (hsub.nodup hdocs)),
      fun d hd => hsub.subset (hperm.mem_iff.mpr (hrows.subset hd))⟩
  | union decided branches asked => by
    obtain ⟨hnodup, hsub, -⟩ := nodup_runAll hdocs asked [] branches
    have hrows := rows_ifDecided_sublist decided (runAll docs asked [] branches)
    rw [run]
    exact ⟨hrows.nodup hnodup, List.Subset.trans hrows.subset hsub⟩

/-- Nor do several plans, and they pass over what has been seen before. -/
theorem nodup_runAll (hdocs : docs.Nodup) (asked : List Demand) : ∀ (seen : List Document)
    (branches : List Plan), (runAll docs asked seen branches).rows.Nodup ∧
      (runAll docs asked seen branches).rows ⊆ docs ∧
      ∀ d ∈ (runAll docs asked seen branches).rows, ∀ e ∈ seen, d.sameKey e = false
  | seen, [] => by
    rw [runAll]
    exact ⟨List.nodup_nil, List.nil_subset _, fun _ hd => nomatch hd⟩
  | seen, branch :: branches => by
    obtain ⟨hnodup, hsub⟩ := nodup_run hdocs branch
    obtain ⟨hnodupRest, hsubRest, hunseenRest⟩ :=
      nodup_runAll hdocs asked (seen ++ (branch.run docs).rows) branches
    rw [runAll]
    -- what the first branch gives is among what it finds, and has not been seen
    have hfirst := rows_ask_sublist asked ((branch.run docs).filter fun d => !seen.any d.sameKey)
    have hfound : ∀ d ∈ (ask asked ((branch.run docs).filter fun d => !seen.any d.sameKey)).rows,
        d ∈ (branch.run docs).rows ∧ ∀ e ∈ seen, d.sameKey e = false := by
      intro d hd
      obtain ⟨hmem, hunseen⟩ := List.mem_filter.mp (hfirst.subset hd)
      rw [Bool.not_eq_true', List.any_eq_false] at hunseen
      exact ⟨hmem, fun e he => Bool.eq_false_iff.mpr (hunseen e he)⟩
    have hrest : ∀ d ∈ (runAll docs asked (seen ++ (branch.run docs).rows) branches).rows,
        d ∉ (branch.run docs).rows := by
      intro d hd hmem
      have hkey := hunseenRest d hd d (List.mem_append_right _ hmem)
      simp [Document.sameKey] at hkey
    have hrows := Found.rows_append_sublist
      (ask asked ((branch.run docs).filter fun d => !seen.any d.sameKey))
      (runAll docs asked (seen ++ (branch.run docs).rows) branches)
    refine ⟨hrows.nodup (List.Nodup.append ?_ hnodupRest ?_), fun d hd => ?_, fun d hd e he => ?_⟩
    · exact hfirst.nodup (hnodup.filter _)
    · exact fun d hd hd' => hrest d hd' (hfound d hd).1
    · rcases List.mem_append.mp (hrows.subset hd) with hd | hd
      · exact hsub (hfound d hd).1
      · exact hsubRest hd
    · rcases List.mem_append.mp (hrows.subset hd) with hd | hd
      · exact (hfound d hd).2 e he
      · exact hunseenRest d hd e (List.mem_append_left _ he)

end

/-- **No plan finds a row twice.** -/
theorem run_subperm (hdocs : docs.Nodup) (plan : Plan) : (plan.run docs).rows.Subperm docs :=
  List.subperm_of_subset (nodup_run hdocs plan).1 (nodup_run hdocs plan).2

/-- Nor does it if its rows are divided. -/
theorem runs_subperm (hdocs : docs.Nodup) (plan : Plan) :
    ((plan.runs docs).flatMap (·.rows)).Subperm docs := by
  have hone : ∀ plan : Plan, ([plan.run docs].flatMap (·.rows)).Subperm docs := by
    intro plan
    rw [List.flatMap_singleton]
    exact run_subperm hdocs plan
  cases plan with
  | table decided asked => exact hone _
  | union decided branches asked => exact hone _
  | index decided tests reversed asked =>
    rw [runs]
    cases Demand.decide decided with
    | error e => exact List.nil_subperm
    | ok b =>
      cases b with
      | false => exact List.nil_subperm
      | true =>
        simp only [List.flatMap_map]
        refine List.Subperm.trans (flatMap_subperm fun part _ =>
          (rows_ask_sublist asked (.ofList part)).subperm) ?_
        show (List.flatMap id _).Subperm docs
        rw [List.flatMap_id, List.flatten_splitBy]
        exact lookUp_subperm tests reversed docs

end Plan

/-! ### Pages -/

namespace Database

variable {db : Database} {clauses : List SortClause} {checks : List Check}

/-- The rows of a page for all documents of a target. -/
def shownRows (db : Database) (t : Target) : List Row :=
  ((db.indexTable? t.table).getD []).map (shownRow t)

/-- A target has its documents, each of them once, or it is not there. -/
theorem IsKeyed.targetRows (hdb : db.IsKeyed) {t : Target} {docs : List Document}
    (h : db.targetRows t = .ok docs) : docs.Nodup ∧ db.shownRows t = docs.map (shownRow t) := by
  have hdocs := targetRows_eq_ok h
  exact ⟨(hdb.indexTable? hdocs).nodup, by rw [shownRows, hdocs]; rfl⟩

/-- Candidates with the cells that they are sorted by. -/
theorem rows_sortedRow_sublist (clauses : List SortClause) (x : Found Candidate) :
    ((x.mapM (·.sortedRow clauses)).rows.map (·.row)).Sublist (x.rows.map Candidate.pageRow) :=
  Found.rows_mapM_sublist (fun c r hr => by
    obtain ⟨cells, -, hr⟩ := bind_eq_ok.mp hr
    cases hr
    rfl) x

theorem rows_sortedRows_sublist (clauses : List SortClause) (t : Target) (found : Found Document) :
    ((sortedRows clauses t found).rows.map (·.row)).Sublist (found.rows.map (shownRow t)) := by
  have hrows := rows_sortedRow_sublist clauses (ofTarget t found)
  have himages : (ofTarget t found).rows.map Candidate.pageRow = found.rows.map (shownRow t) :=
    List.map_map
  rwa [himages] at hrows

theorem sortedTarget_subperm (hdb : db.IsKeyed) (clauses : List SortClause) (count : Option Nat)
    (g : Goal) (checks : List Check) (t : Target) :
    ((db.sortedTarget clauses count g checks t).rows.map (·.row)).Subperm (db.shownRows t) := by
  cases htarget : db.targetRows t with
  | error e =>
    rw [sortedTarget, htarget]
    exact List.nil_subperm
  | ok docs =>
    obtain ⟨hdocs, hshown⟩ := hdb.targetRows htarget
    have hrun : ∀ plan : Plan,
        ((plan.run docs).rows.map (shownRow t)).Subperm (docs.map (shownRow t)) :=
      fun plan => map_subperm (plan.run_subperm hdocs) _
    have hrows : ∀ plan : Plan, ((sortedRows clauses t (plan.run docs)).rows.map (·.row)).Subperm
        (docs.map (shownRow t)) :=
      fun plan => (rows_sortedRows_sublist clauses t _).subperm.trans (hrun plan)
    have hsorts := sorts_sortedTarget htarget clauses count g checks
    rw [hshown]
    -- whichever way the rows are sorted, they are among those that some plan finds
    generalize db.sortedTarget clauses count g checks t = x at hsorts ⊢
    cases hsorts with
    | found => exact hrows _
    | unseen =>
      simp only [ofTarget, Found.map, List.map_map]
      exact hrun _
    | inBlocks n =>
      exact (map_subperm (Found.rows_sortedInBlocks_subperm _ _ _) _).trans (hrows _)
    | @inRuns n hn =>
      cases hheld : Found.least (SortedRow.le clauses) n
        (((Plan.make g (Demand.ofChecks checks)).plan.runs docs).map (sortedRows clauses t)) with
      | error e => exact List.nil_subperm
      | ok held =>
        have hleast := map_subperm (Found.least_subperm hheld) (·.row)
        rw [List.flatMap_map, List.map_flatMap] at hleast
        refine hleast.trans ((flatMap_subperm fun run _ =>
          (rows_sortedRows_sublist clauses t run).subperm).trans ?_)
        rw [← List.map_flatMap]
        exact map_subperm (Plan.runs_subperm hdocs _) _
    | mixed => exact (map_subperm (Found.rows_sorted_subperm _ _) _).trans (hrows _)

theorem mergeAll_subperm (le : SortedRow → SortedRow → Bool) (depth : Nat)
    (searches : List (Found SortedRow)) :
    (mergeAll le depth searches).rows.Subperm (searches.flatMap (·.rows)) := by
  fun_induction mergeAll le depth searches with
  | case1 => exact List.Subperm.refl _
  | case2 _ x => rw [List.flatMap_singleton]
  | case3 xs => exact (Found.rows_concat_sublist xs).subperm
  | case4 xs depth _ _ n ihFirst ihRest =>
    refine (Found.rows_merge_subperm le _ _).trans ((ihFirst.append ihRest).trans ?_)
    rw [← List.flatMap_append, List.take_append_drop]

theorem mergedTargets_subperm (hdb : db.IsKeyed) (clauses : List SortClause) (count : Option Nat)
    (checks : List Check) (targets : List Target) :
    ((db.mergedTargets clauses count checks targets).rows.map (·.row)).Subperm
      (targets.flatMap db.shownRows) := by
  refine (map_subperm (mergeAll_subperm _ _ _) _).trans ?_
  rw [List.flatMap_map, List.map_flatMap]
  exact flatMap_subperm fun t _ => sortedTarget_subperm hdb clauses count _ checks t

/-- What is found in several tables, one after the other. -/
theorem concat_inTarget_subperm (hdb : db.IsKeyed) (demands : List Demand)
    (targets : List Target) :
    ((Found.concat (targets.map (db.inTarget demands))).rows.map Candidate.pageRow).Subperm
      (targets.flatMap db.shownRows) := by
  have htarget : ∀ t : Target, ((db.inTarget demands t).rows.map Candidate.pageRow).Subperm
      (db.shownRows t) := by
    intro t
    rw [inTarget]
    cases hrows : db.targetRows t with
    | error e => exact List.nil_subperm
    | ok docs =>
      obtain ⟨hdocs, hshown⟩ := hdb.targetRows hrows
      rw [hshown]
      show ((ofTarget t ((Plan.make {} demands).plan.run docs)).rows.map _).Subperm _
      rw [ofTarget, Found.map, List.map_map]
      exact map_subperm (Plan.run_subperm hdocs _) (shownRow t)
  refine ((Found.rows_concat_sublist _).map _).subperm.trans ?_
  rw [List.flatMap_map, List.map_flatMap]
  exact flatMap_subperm fun t _ => htarget t

theorem allTogether_subperm (hdb : db.IsKeyed) (checks : List Check) (targets : List Target) :
    ((db.allTogether checks targets).rows.map Candidate.pageRow).Subperm
      (targets.flatMap db.shownRows) := by
  rw [allTogether_eq]
  split
  case isTrue => exact List.nil_subperm
  case isFalse =>
    cases Demand.decide ((Demand.ofChecks checks).filter Demand.isDecided) with
    | error e => exact List.nil_subperm
    | ok b =>
      cases b with
      | false => exact List.nil_subperm
      | true =>
        exact ((Found.rows_filterM_sublist _ _).map _).subperm.trans
          (concat_inTarget_subperm hdb _ targets)

/-- The rows that a page is taken from. -/
theorem pageRows_subperm (hdb : db.IsKeyed) (clauses : List SortClause) (size offset : Int64)
    (targets : List Target) (types : List String) (filter : Option Condition) :
    (db.pageRows clauses size offset (.documents targets types filter)).rows.Subperm
      (targets.flatMap db.shownRows) := by
  match targets with
  | [t] =>
    rw [List.flatMap_singleton]
    exact sortedTarget_subperm hdb clauses _ _ _ t
  | [] | _ :: _ :: _ =>
    simp only [pageRows]
    split
    case isTrue => exact concat_inTarget_subperm hdb _ _
    case isFalse =>
      split
      case isTrue => exact mergedTargets_subperm hdb clauses _ _ _
      case isFalse =>
        refine (map_subperm (Found.rows_sorted_subperm _ _) _).trans ?_
        exact (rows_sortedRow_sublist clauses _).subperm.trans (allTogether_subperm hdb _ _)

/-- **No page shows a document of its targets twice**, whatever fails behind the last row. -/
theorem read_page_subperm (hdb : db.IsKeyed) {targets : List Target} {types : List String}
    {filter : Option Condition} {clauses : List SortClause} {size offset : Int64} {rows : List Row}
    (h : db.read (.page (.documents targets types filter) clauses size offset) = .ok rows) :
    rows.Subperm (targets.flatMap db.shownRows) := by
  obtain ⟨first, hfirst, hrows⟩ := bind_eq_ok.mp h
  cases hrows
  exact ((List.drop_sublist _ _).trans (Found.upTo_sublist hfirst)).subperm.trans
    (pageRows_subperm hdb clauses size offset targets types filter)

end Database

end DocSearch
