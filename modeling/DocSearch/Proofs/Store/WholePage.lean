import DocSearch.Proofs.Store.Liveness
import DocSearch.Proofs.Store.Page
import DocSearch.Proofs.Store.Parts

/-!
# Pages that show a whole index

A page of an index, nothing being asked of its documents, shows them all if it is long
enough, and each of them once.  They may be sorted in any of the ways in which rows are
brought into an order; as long as no row is cut off, each way rearranges what it is given.
Nothing fails but the look at a field that the page is sorted by.

## Main definitions

* `Found.Covers` — what is found are images of the members of a list, each of them once and
  all of them unless something fails.
* `Plan.GivesAll` — a plan finds all rows of a table.

## Main results

* `Plan.givesAll_make` — the plan for no demands finds all rows.
* `Database.read_whole_page` — **a long page shows each document of an index once**.
* `Database.read_page_total` — it does not fail if it can be sorted.
-/

namespace DocSearch

open Sql Steps

/-! ### Searches that cover a list -/

namespace Found

variable {α β γ : Type} {f : α → γ} {all : List γ} {x : Found α}

/-- The images of what is found are members of a list, each found at most once, and exactly
once if nothing fails. -/
structure Covers (f : α → γ) (all : List γ) (x : Found α) : Prop where
  /-- Nothing is found twice. -/
  rows : (x.rows.map f).Subperm all
  /-- Everything is found unless something fails. -/
  whole : x.failure = none → (x.rows.map f).Perm all

theorem covers_ofList {rows : List α} (h : (rows.map f).Perm all) : (ofList rows).Covers f all :=
  ⟨h.subperm, fun _ => h⟩

theorem covers_fail (e : EvaluationError) : (fail e : Found α).Covers f all :=
  ⟨List.nil_subperm, fun h => nomatch h⟩

theorem covers_ofExcept {r : Except EvaluationError (Found α)}
    (h : ∀ found, r = .ok found → found.Covers f all) : (ofExcept r).Covers f all := by
  cases r with
  | error e => exact covers_fail e
  | ok found => exact h found rfl

/-- What a function gives for each member of a list. -/
theorem covers_mapM {g : α → Except EvaluationError β} {h : β → γ} (as : List α)
    (hg : ∀ a b, g a = .ok b → h b = f a) : ((ofList as).mapM g).Covers h (as.map f) := by
  induction as with
  | nil => exact covers_ofList (.refl _)
  | cons a as ih =>
    change (ofRows (fun a => (g a).map some) none (a :: as)).Covers h ((a :: as).map f)
    cases ha : g a with
    | error e =>
      rw [ofRows_cons_of_error (e := e) (by rw [ha]; rfl)]
      exact covers_fail e
    | ok b =>
      rw [ofRows_cons_of_ok (b := b) (by rw [ha]; rfl)]
      change (cons b ((ofList as).mapM g)).Covers h ((a :: as).map f)
      rw [List.map_cons, ← hg a b ha]
      exact ⟨(List.subperm_cons _).mpr ih.rows, fun hfailure => (ih.whole hfailure).cons _⟩

theorem Covers.perm {all' : List γ} (h : x.Covers f all) (hall : all.Perm all') :
    x.Covers f all' :=
  ⟨h.rows.trans hall.subperm, fun hfailure => (h.whole hfailure).trans hall⟩

theorem Covers.map {g : β → α} {x : Found β} (h : x.Covers (f ∘ g) all) :
    (x.map g).Covers f all := by
  have himages : (x.map g).rows.map f = x.rows.map (f ∘ g) := List.map_map
  exact ⟨himages ▸ h.rows, fun hfailure => himages ▸ h.whole hfailure⟩

theorem Covers.sorted (le : α → α → Bool) (h : x.Covers f all) : (x.sorted le).Covers f all := by
  rw [Found.sorted]
  split
  case h_1 e he => exact covers_fail e
  case h_2 hnone =>
    exact covers_ofList (((List.mergeSort_perm x.rows le).map f).trans (h.whole hnone))

theorem Covers.sortedInBlocks (same le : α → α → Bool) (h : x.Covers f all) :
    (x.sortedInBlocks same le).Covers f all := by
  refine ⟨(map_subperm (rows_sortedInBlocks_subperm same le x) f).trans h.rows, fun hfailure => ?_⟩
  have hnone : x.failure = none := hfailure
  have hperm := ((flatMap_mergeSort_perm le (x.rows.splitBy same)).map f)
  rw [List.flatten_splitBy] at hperm
  rw [Found.sortedInBlocks, hnone]
  exact hperm.trans (h.whole hnone)

/-- What is taken of a search that covers a list, if no more is wanted than there is. -/
theorem Covers.upTo {limit : Option Nat} {rows : List α} (h : x.Covers f all)
    (hlimit : ∀ n ∈ limit, all.length ≤ n) (hrows : x.upTo limit = .ok rows) :
    (rows.map f).Perm all := by
  have hwhole : ∀ rows, x.toExcept = .ok rows → (rows.map f).Perm all := by
    intro rows hrows
    obtain rfl := toExcept_eq_ok_iff.mp hrows
    exact h.whole rfl
  cases limit with
  | none => exact hwhole rows hrows
  | some n =>
    have hall := hlimit n rfl
    rw [Found.upTo, take] at hrows
    split at hrows
    case isFalse => exact hwhole rows hrows
    case isTrue hn =>
      -- as many rows are found as there are, so that none is missing
      cases hrows
      have hlength : (x.rows.map f).length = x.rows.length := List.length_map f
      have hperm : (x.rows.map f).Perm all :=
        h.rows.perm_of_length_le (by omega)
      rw [List.take_of_length_le (by have := h.rows.length_le; omega)]
      exact hperm

theorem upTo_total (limit : Option Nat) (h : x.failure = none) : ∃ rows, x.upTo limit = .ok rows := by
  cases limit with
  | none => exact ⟨_, toExcept_total h⟩
  | some n =>
    rw [Found.upTo, take]
    split
    case isTrue => exact ⟨_, rfl⟩
    case isFalse => exact ⟨_, toExcept_total h⟩

theorem sorted_total (le : α → α → Bool) (h : x.failure = none) : (x.sorted le).failure = none := by
  rw [Found.sorted, h]
  rfl

/-! ### Runs -/

/-- A run is taken in as a whole if there is room for it. -/
theorem takeRun_perm {le : α → α → Bool} {n : Nat} {failure : Option EvaluationError}
    {rows held after : List α} (hroom : held.length + rows.length ≤ n)
    (h : takeRun le n failure held rows = .ok after) :
    failure = none ∧ after.Perm (held ++ rows) := by
  induction rows generalizing held with
  | nil =>
    unfold takeRun at h
    cases failure with
    | some e => cases h
    | none =>
      cases h
      exact ⟨rfl, by rw [List.append_nil]⟩
  | cons a rows ih =>
    have hinsert := insertSorted_perm le a held
    rw [List.length_cons] at hroom
    rw [takeRun, if_pos (by omega)] at h
    obtain ⟨hfailure, hperm⟩ := ih (by rw [hinsert.length_eq, List.length_cons]; omega) h
    exact ⟨hfailure, hperm.trans ((hinsert.append_right rows).trans List.perm_middle.symm)⟩

/-- Runs are taken in one after the other if there is room for all of them. -/
theorem least_perm {le : α → α → Bool} {n : Nat} {runs : List (Found α)} {held : List α}
    (hroom : (runs.flatMap (·.rows)).length ≤ n) (h : least le n runs = .ok held) :
    (∀ run ∈ runs, run.failure = none) ∧ held.Perm (runs.flatMap (·.rows)) := by
  -- the induction is on the runs, with room left for those that are still to come
  have hfold : ∀ before : List α, before.length + (runs.flatMap (·.rows)).length ≤ n →
      runs.foldlM (fun held run => takeRun le n run.failure held run.rows) before = .ok held →
      (∀ run ∈ runs, run.failure = none) ∧ held.Perm (before ++ runs.flatMap (·.rows)) := by
    clear hroom h
    induction runs with
    | nil =>
      intro before _ h
      cases h
      exact ⟨fun _ hrun => (nomatch hrun), by simp⟩
    | cons run runs ih =>
      intro before hroom h
      rw [List.foldlM_cons] at h
      obtain ⟨after, htake, h⟩ := bind_eq_ok.mp h
      rw [List.flatMap_cons, List.length_append] at hroom
      obtain ⟨hfailure, hafter⟩ := takeRun_perm (by omega) htake
      have hlength := hafter.length_eq
      rw [List.length_append] at hlength
      obtain ⟨hfailures, hheld⟩ := ih after (by omega) h
      refine ⟨List.forall_mem_cons.mpr ⟨hfailure, hfailures⟩, hheld.trans ?_⟩
      rw [List.flatMap_cons, ← List.append_assoc]
      exact hafter.append_right _
  simpa using hfold [] (by simpa using hroom) h

theorem takeRun_total (le : α → α → Bool) (n : Nat) (rows held : List α) :
    ∃ after, takeRun le n none held rows = .ok after := by
  induction rows generalizing held with
  | nil => exact ⟨held, rfl⟩
  | cons a rows ih =>
    rw [takeRun]
    split
    case isTrue => exact ih _
    case isFalse =>
      split
      case isTrue => exact ⟨held, rfl⟩
      case isFalse => exact ih _

/-- Runs that do not fail have least rows. -/
theorem least_total (le : α → α → Bool) (n : Nat) {runs : List (Found α)}
    (h : ∀ run ∈ runs, run.failure = none) : ∃ held, least le n runs = .ok held := by
  have hfold : ∀ before : List α, ∃ held, runs.foldlM
      (fun held run => takeRun le n run.failure held run.rows) before = .ok held := by
    induction runs with
    | nil => exact fun before => ⟨before, rfl⟩
    | cons run runs ih =>
      intro before
      obtain ⟨hrun, hruns⟩ := List.forall_mem_cons.mp h
      obtain ⟨after, hafter⟩ := takeRun_total le n run.rows before
      rw [List.foldlM_cons, hrun, hafter]
      exact ih hruns after
  exact hfold []

/-- The least rows of runs that cover the parts of a list are all rows, if there is room. -/
theorem covers_least {le : α → α → Bool} {n : Nat} {parts : List (List β)} {g : β → γ}
    {run : List β → Found α} (hrun : ∀ part, (run part).Covers f (part.map g))
    (hroom : parts.flatten.length ≤ n) {held : List α}
    (h : least le n (parts.map run) = .ok held) :
    (held.map f).Perm (parts.flatten.map g) := by
  have hbound : ∀ parts : List (List β),
      ((parts.map run).flatMap (·.rows)).length ≤ parts.flatten.length := by
    intro parts
    induction parts with
    | nil => exact Nat.le_refl 0
    | cons part parts ih =>
      have hpart := (hrun part).rows.length_le
      simp only [List.length_map, List.map_cons, List.flatMap_cons, List.flatten_cons,
        List.length_append] at hpart ih ⊢
      omega
  obtain ⟨hfailures, hheld⟩ := least_perm ((hbound parts).trans hroom) h
  refine (hheld.map f).trans ?_
  -- what is left is about the runs alone: each of them is all of its part
  clear hheld h hroom
  induction parts with
  | nil => exact .refl _
  | cons part parts ih =>
    obtain ⟨hpart, hparts⟩ := List.forall_mem_cons.mp hfailures
    simp only [List.map_cons, List.flatMap_cons, List.map_append, List.flatten_cons]
    exact ((hrun part).whole hpart).append (ih hparts)

end Found

/-! ### Plans -/

namespace Plan

variable {docs : List Document}

/-- A plan finds all rows, all at once or run by run. -/
structure GivesAll (docs : List Document) (plan : Plan) : Prop where
  /-- All at once. -/
  run : ∃ rows, plan.run docs = .ofList rows ∧ rows.Perm docs
  /-- Run by run. -/
  runs : ∃ parts : List (List Document), plan.runs docs = parts.map .ofList ∧
    parts.flatten.Perm docs

/-- Whoever asks nothing gets everything. -/
theorem ask_nil (rows : List Document) : ask [] (.ofList rows) = .ofList rows := by
  induction rows with
  | nil => rfl
  | cons d rows ih => exact congrArg (Found.cons d) ih

theorem lookUp_nil_perm (reversed : Bool) (docs : List Document) :
    (lookUp [] reversed docs).Perm docs := by
  have hrows : (inKeyOrder (docs.filter fun d => [].all d.satisfies)).Perm docs := by
    have hall : (docs.filter fun d => [].all d.satisfies) = docs :=
      List.filter_eq_self.mpr fun _ _ => rfl
    rw [hall]
    exact List.mergeSort_perm docs _
  cases reversed with
  | false => exact hrows
  | true => exact (List.reverse_perm _).trans hrows

theorem givesAll_ofTable : GivesAll docs (ofTable []) := by
  have hrun : (ofTable []).run docs = .ofList docs := ask_nil docs
  exact ⟨⟨docs, hrun, .refl _⟩, [docs], congrArg ([·]) hrun, by simp⟩

theorem givesAll_ofLookups (reversed : Bool) : GivesAll docs (ofLookups [] [] reversed) := by
  have hperm := lookUp_nil_perm reversed docs
  have hruns : (ofLookups [] [] reversed).runs docs =
      ((lookUp [] reversed docs).splitBy fun d e => d.docType == e.docType && true).map .ofList :=
    List.map_congr_left fun rows _ => ask_nil rows
  refine ⟨⟨_, ask_nil (lookUp [] reversed docs), hperm⟩, _, hruns, ?_⟩
  rw [List.flatten_splitBy]
  exact hperm

/-- No access path leads past a row, if nothing is asked. -/
theorem givesAll_ofPath (makeBranch : List Demand → Plan) (reversed : Bool) (p : AccessPath) :
    GivesAll docs (ofPath makeBranch (Clause.ofDemands []) [] reversed p) := by
  rw [ofPath]
  split
  case h_1 => exact givesAll_ofTable
  case h_2 =>
    have hnone : p.used.filterMap (Lookup.ofRef? (Clause.ofDemands [])) = [] :=
      List.filterMap_eq_nil_iff.mpr fun r _ => rfl
    rw [hnone]
    exact givesAll_ofLookups reversed
  case h_3 =>
    have hnone : (p.used.head?.bind fun r => ([] : List Demand)[r.place]?.map (r.place, ·)) = none := by
      cases p.used.head? <;> rfl
    rw [hnone]
    exact givesAll_ofTable

/-- **The plan for no demands finds all rows.** -/
theorem givesAll_make (g : Goal) : GivesAll docs (make g []).plan := givesAll_ofPath _ _ _

end Plan

/-! ### Pages of one index -/

namespace Database

variable {db : Database} {t : Target} {docs : List Document} {clauses : List SortClause}

/-- The row of a page for a document of a target. -/
def shownRow (t : Target) (d : Document) : Row := Candidate.pageRow ⟨t.index, d⟩

/-- The rows of a target, with the cells that they are sorted by. -/
theorem covers_sortedRows (clauses : List SortClause) (t : Target) (rows : List Document) :
    (sortedRows clauses t (.ofList rows)).Covers (·.row) (rows.map (shownRow t)) := by
  have hcovers := Found.covers_mapM (g := (Candidate.sortedRow clauses)) (h := (·.row))
    (f := Candidate.pageRow) (rows.map fun d => ⟨t.index, d⟩) fun c r hr => by
      obtain ⟨cells, -, hr⟩ := bind_eq_ok.mp hr
      cases hr
      rfl
  rw [List.map_map] at hcovers
  exact hcovers

/-- **The rows of a target that a page is taken from** are those of all its documents, in
whichever way they are sorted. -/
theorem covers_sortedTarget (hdocs : db.indexTable? t.table = some docs) {count : Option Nat}
    (hcount : ∀ n ∈ count, docs.length ≤ n) (g : Goal) :
    (db.sortedTarget clauses count g [] t).Covers (·.row) (docs.map (shownRow t)) := by
  have hall : Plan.GivesAll docs (Plan.make g (Demand.ofChecks [])).plan := Plan.givesAll_make g
  obtain ⟨⟨rows, hrun, hrows⟩, parts, hruns, hparts⟩ := hall
  have htarget : db.targetRows t = .ok docs := by rw [targetRows, hdocs]
  have hsorts := sorts_sortedTarget htarget clauses count g []
  have hperm := hrows.map (shownRow t)
  have hcovers := (covers_sortedRows clauses t rows).perm hperm
  rw [← hrun] at hcovers
  generalize db.sortedTarget clauses count g [] t = x at hsorts ⊢
  cases hsorts with
  | found => exact hcovers
  | unseen =>
    rw [hrun]
    refine Found.Covers.map (Found.Covers.map (Found.covers_ofList ?_))
    exact hperm
  | inBlocks n => exact hcovers.sortedInBlocks _ _
  | @inRuns n hn =>
    -- there is room for all rows, so the least of them are all of them
    refine Found.covers_ofExcept fun found hfound => ?_
    obtain ⟨held, hheld, hfound⟩ := bind_eq_ok.mp hfound
    cases hfound
    rw [hruns, List.map_map] at hheld
    have hroom : parts.flatten.length ≤ n := hparts.length_eq.trans_le (hcount n hn)
    have hleast := Found.covers_least (covers_sortedRows clauses t) hroom hheld
    exact Found.covers_ofList (hleast.trans (hparts.map (shownRow t)))
  | mixed => exact hcovers.sorted _

/-- **A page that is long enough shows every document of an index once**, in whatever order. -/
theorem read_whole_page (hdocs : db.indexTable? t.table = some docs) {size offset : Int64}
    (hoffset : offset.toInt.toNat = 0) (hsize : ∀ n ∈ pageEnd size offset, docs.length ≤ n)
    {rows : List Row}
    (h : db.read (.page (.documents [t] [] none) clauses size offset) = .ok rows) :
    rows.Perm (docs.map (shownRow t)) := by
  obtain ⟨first, hfirst, hrows⟩ := bind_eq_ok.mp h
  cases hrows
  rw [hoffset, List.drop_zero]
  have hsorted : (db.sortedTarget clauses (pageEnd size offset) (pageGoal clauses (some size)) []
      t).Covers (id ∘ (·.row)) (docs.map (shownRow t)) := covers_sortedTarget hdocs hsize _
  have hcovers : (db.pageRows clauses size offset (.documents [t] [] none)).Covers id
      (docs.map (shownRow t)) := hsorted.map
  have hshown := hcovers.upTo (fun n hn => by rw [List.length_map]; exact hsize n hn) hfirst
  rwa [List.map_id] at hshown

/-- The rows of a target are found without failure if they can be sorted. -/
theorem sortedTarget_total (hdocs : db.indexTable? t.table = some docs)
    (hsort : ∀ d ∈ docs, ∀ s ∈ clauses, ∃ cell, d.fieldValue s.field = .ok cell)
    (count : Option Nat) (g : Goal) : (db.sortedTarget clauses count g [] t).failure = none := by
  have hall : Plan.GivesAll docs (Plan.make g (Demand.ofChecks [])).plan := Plan.givesAll_make g
  obtain ⟨⟨rows, hrun, hrows⟩, parts, hruns, hparts⟩ := hall
  have htarget : db.targetRows t = .ok docs := by rw [targetRows, hdocs]
  have hsorts := sorts_sortedTarget htarget clauses count g []
  -- the columns of a row depend on its document only, not on the plan that has found it
  have hrowsOf : ∀ found : List Document, found ⊆ docs →
      (sortedRows clauses t (.ofList found)).failure = none := by
    intro found hfound
    refine Found.mapM_total rfl fun c hc => ?_
    obtain ⟨d, hd, rfl⟩ := List.mem_map.mp hc
    obtain ⟨cells, hcells⟩ := mapM_total fun s hs => hsort d (hfound hd) s hs
    exact ⟨_, by rw [Candidate.sortedRow, hcells]; rfl⟩
  have hsorted := hrowsOf rows hrows.subset
  rw [← hrun] at hsorted
  generalize db.sortedTarget clauses count g [] t = x at hsorts ⊢
  cases hsorts with
  | found => exact hsorted
  | unseen =>
    rw [hrun]
    rfl
  | inBlocks n => exact hsorted
  | @inRuns n hn =>
    have hfailures : ∀ run ∈ parts.map (sortedRows clauses t ∘ .ofList), run.failure = none :=
      List.forall_mem_map.mpr fun part hpart => hrowsOf part fun d hd =>
        hparts.subset (List.mem_flatten.mpr ⟨part, hpart, hd⟩)
    obtain ⟨held, hheld⟩ := Found.least_total (SortedRow.le clauses) n hfailures
    rw [hruns, List.map_map, hheld]
    rfl
  | mixed => exact Found.sorted_total _ hsorted

/-- **A page of an index does not fail** if it can be sorted. -/
theorem read_page_total (hdocs : db.indexTable? t.table = some docs)
    (hsort : ∀ d ∈ docs, ∀ s ∈ clauses, ∃ cell, d.fieldValue s.field = .ok cell)
    (size offset : Int64) :
    ∃ rows, db.read (.page (.documents [t] [] none) clauses size offset) = .ok rows := by
  have hfailure : (db.pageRows clauses size offset (.documents [t] [] none)).failure = none :=
    sortedTarget_total hdocs hsort _ _
  obtain ⟨first, hfirst⟩ := Found.upTo_total (pageEnd size offset) hfailure
  exact ⟨_, by rw [read, hfirst]; rfl⟩

end Database

end DocSearch
