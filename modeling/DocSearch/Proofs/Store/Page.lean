import DocSearch.Proofs.Store.Scan
import DocSearch.Store.Answer
import Mathlib.Data.List.Infix
import Mathlib.Data.List.SplitBy

/-!
# What a page shows

The rows of a page are found in one of many ways: in one table or in several, in the order
of an index, in blocks or in runs of it, or sorted at the end.  Whoever needs only the first
rows does not see what fails behind them, so here, unlike for statements that look at all
rows, nothing can be learnt from the absence of failures.  Still every row that is found
belongs to a document of one of the targets that is selected.

## Main definitions

* `Found.Only` — everything that is found has a property.
* `Plan.Gives` — a plan finds nothing but rows that meet some demands.
* `Candidate.IsIn` — a candidate is a document of one of some targets.
* `Database.Sorts` — how the rows of a target are brought into an order.

## Main results

* `Plan.gives_make` — **no plan finds anything else**, whatever fails behind it.
* `Database.read_page` — **a page shows nothing but selected documents** of its targets.
-/

namespace DocSearch

open Sql Steps

/-! ### Rows that have a property -/

namespace Found

variable {α β : Type} {P : α → Prop} {Q : β → Prop} {x y : Found α}

/-- Everything that is found has a property, also if something fails behind it. -/
def Only (P : α → Prop) (x : Found α) : Prop := ∀ a ∈ x.rows, P a

theorem only_empty : (empty : Found α).Only P := fun _ ha => nomatch ha

theorem only_fail (e : EvaluationError) : (fail e : Found α).Only P := fun _ ha => nomatch ha

theorem only_ofExcept {r : Except EvaluationError (Found α)} (h : ∀ found, r = .ok found → found.Only P) :
    (ofExcept r).Only P := by
  cases r with
  | error e => exact only_fail e
  | ok found => exact h found rfl

theorem Only.filterMapM {f : α → Except EvaluationError (Option β)} (hx : x.Only P)
    (hf : ∀ a b, P a → f a = .ok (some b) → Q b) : (x.filterMapM f).Only Q := by
  obtain ⟨rows, failure⟩ := x
  induction rows with
  | nil => exact fun _ hb => nomatch hb
  | cons a rows ih =>
    obtain ⟨ha, hrows⟩ := List.forall_mem_cons.mp hx
    rw [Found.filterMapM, ofRows]
    split
    case h_1 b hb => exact List.forall_mem_cons.mpr ⟨hf a b ha hb, ih hrows⟩
    case h_2 => exact ih hrows
    case h_3 e he => exact only_fail e

theorem Only.mapM {f : α → Except EvaluationError β} (hx : x.Only P)
    (hf : ∀ a b, P a → f a = .ok b → Q b) : (x.mapM f).Only Q := by
  refine hx.filterMapM fun a b ha hb => ?_
  obtain ⟨c, hc, heq⟩ := map_eq_ok.mp hb
  exact hf a b ha (Option.some.inj heq ▸ hc)

theorem Only.filterM {p : α → Except EvaluationError Bool} {R : α → Prop} (hx : x.Only P)
    (hp : ∀ a, P a → p a = .ok true → R a) : (x.filterM p).Only R := by
  refine hx.filterMapM fun a b ha hb => ?_
  obtain ⟨passes, hpasses, hsome⟩ := map_eq_ok.mp hb
  cases passes with
  | false => cases hsome
  | true =>
    cases hsome
    exact hp a ha hpasses

theorem Only.map {f : α → β} (hx : x.Only P) (hf : ∀ a, P a → Q (f a)) : (x.map f).Only Q :=
  List.forall_mem_map.mpr fun a ha => hf a (hx a ha)

theorem Only.filter (hx : x.Only P) (p : α → Bool) : (x.filter p).Only P :=
  fun a ha => hx a (List.mem_filter.mp ha).1

theorem Only.append (hx : x.Only P) (hy : y.Only P) : (x.append y).Only P := by
  rw [Found.append]
  split
  case h_1 => exact hx
  case h_2 => exact List.forall_mem_append.mpr ⟨hx, hy⟩

theorem only_concat {searches : List (Found α)} (h : ∀ x ∈ searches, x.Only P) :
    (concat searches).Only P := by
  induction searches with
  | nil => exact only_empty
  | cons x searches ih =>
    obtain ⟨hx, hrest⟩ := List.forall_mem_cons.mp h
    exact hx.append (ih hrest)

theorem Only.merge (le : α → α → Bool) (hx : x.Only P) (hy : y.Only P) :
    (x.merge le y).Only P := by
  have hgo : ∀ as bs : List α, (∀ a ∈ as, P a) → (∀ b ∈ bs, P b) →
      (merge.go le x y as bs).Only P := by
    intro as bs
    fun_induction merge.go le x y as bs with
    | case1 bs e h => exact fun _ _ => only_fail e
    | case2 bs h => exact fun _ hbs => hbs
    | case3 a as e h => exact fun _ _ => only_fail e
    | case4 a as h => exact fun has _ => has
    | case5 a as b bs h ih =>
      intro has hbs
      obtain ⟨ha, has⟩ := List.forall_mem_cons.mp has
      exact List.forall_mem_cons.mpr ⟨ha, ih has hbs⟩
    | case6 a as b bs h ih =>
      intro has hbs
      obtain ⟨hb, hbs⟩ := List.forall_mem_cons.mp hbs
      exact List.forall_mem_cons.mpr ⟨hb, ih has hbs⟩
  exact hgo x.rows y.rows hx hy

theorem Only.sorted (le : α → α → Bool) (hx : x.Only P) : (x.sorted le).Only P := by
  rw [Found.sorted]
  split
  case h_1 e he => exact only_fail e
  case h_2 => exact fun a ha => hx a (List.mem_mergeSort.mp ha)

/-- What stands in the blocks of a list stands in the list. -/
theorem mem_of_mem_splitBy {same : α → α → Bool} {rows block : List α} {a : α}
    (hblock : block ∈ rows.splitBy same) (ha : a ∈ block) : a ∈ rows := by
  rw [← List.flatten_splitBy same rows]
  exact List.mem_flatten.mpr ⟨block, hblock, ha⟩

theorem Only.sortedInBlocks (same le : α → α → Bool) (hx : x.Only P) :
    (x.sortedInBlocks same le).Only P := by
  intro a ha
  obtain ⟨block, hblock, ha⟩ := List.mem_flatMap.mp ha
  have hgiven : block ∈ x.rows.splitBy same := by
    split at hblock
    case isTrue => exact List.mem_of_mem_dropLast hblock
    case isFalse => exact hblock
  exact hx a (mem_of_mem_splitBy hgiven (List.mem_mergeSort.mp ha))

theorem Only.upTo {limit : Option Nat} {rows : List α} (hx : x.Only P)
    (h : x.upTo limit = .ok rows) : ∀ a ∈ rows, P a := by
  have hall : ∀ rows, x.toExcept = .ok rows → ∀ a ∈ rows, P a := by
    intro rows hrows
    rw [toExcept_eq_ok_iff] at hrows
    rw [hrows] at hx
    exact hx
  cases limit with
  | none => exact hall rows h
  | some n =>
    rw [Found.upTo, take] at h
    split at h
    case isTrue =>
      cases h
      exact fun a ha => hx a (List.mem_of_mem_take ha)
    case isFalse => exact hall rows h

theorem mem_insertSorted {le : α → α → Bool} {a b : α} {rows : List α}
    (h : b ∈ insertSorted le a rows) : b = a ∨ b ∈ rows := by
  rcases List.mem_append.mp h with hb | hb
  · exact .inr ((List.takeWhile_subset _) hb)
  · exact (List.mem_cons.mp hb).imp_right fun hb => (List.dropWhile_subset _) hb

theorem only_takeRun {le : α → α → Bool} {n : Nat} {failure : Option EvaluationError}
    {rows : List α} (hrows : ∀ a ∈ rows, P a) {held after : List α} (hheld : ∀ a ∈ held, P a)
    (h : takeRun le n failure held rows = .ok after) : ∀ a ∈ after, P a := by
  induction rows generalizing held with
  | nil =>
    unfold takeRun at h
    cases failure with
    | some e => cases h
    | none =>
      cases h
      exact hheld
  | cons b rows ih =>
    obtain ⟨hb, hrows⟩ := List.forall_mem_cons.mp hrows
    rw [takeRun] at h
    split at h
    case isTrue =>
      refine ih hrows (fun a ha => ?_) h
      rcases mem_insertSorted ha with rfl | ha
      · exact hb
      · exact hheld a ha
    case isFalse =>
      split at h
      case isTrue =>
        cases h
        exact hheld
      case isFalse =>
        refine ih hrows (fun a ha => ?_) h
        rcases mem_insertSorted ha with rfl | ha
        · exact hb
        · exact hheld a (List.mem_of_mem_dropLast ha)

theorem only_least {le : α → α → Bool} {n : Nat} {runs : List (Found α)}
    (hruns : ∀ x ∈ runs, x.Only P) {held : List α} (h : least le n runs = .ok held) :
    ∀ a ∈ held, P a :=
  foldlM_keeps_of_mem (I := fun held : List α => ∀ a ∈ held, P a)
    (fun x hx htake hheld => only_takeRun (hruns x hx) hheld htake) h fun _ ha => nomatch ha

end Found

/-! ### Plans -/

namespace Plan

variable {docs : List Document} {demands : List Demand} {P : Document → Prop} {x : Found Document}

/-- A plan finds nothing but rows that meet some demands, all at once or run by run. -/
structure Gives (docs : List Document) (demands : List Demand) (plan : Plan) : Prop where
  /-- All at once. -/
  run : (plan.run docs).Only fun d => d ∈ docs ∧ d.MeetsAll demands
  /-- Run by run. -/
  runs : ∀ x ∈ plan.runs docs, x.Only fun d => d ∈ docs ∧ d.MeetsAll demands

theorem only_ask (hx : x.Only P) : (ask demands x).Only fun d => P d ∧ d.MeetsAll demands :=
  hx.filterM fun _ hd hholds => ⟨hd, (Demand.passes_iff_of_allHold hholds).mpr rfl⟩

theorem only_ifDecided (h : Demand.Anchored demands)
    (hx : (∀ d : Document, d.MeetsAll (demands.filter Demand.isDecided)) → x.Only P) :
    (ifDecided (demands.filter Demand.isDecided) x).Only P := by
  refine Found.only_ofExcept fun found hfound => ?_
  obtain ⟨b, hb, hfound⟩ := bind_eq_ok.mp hfound
  cases b with
  | true =>
    cases hfound
    exact hx fun d => (h.meetsAll_decided hb d).mpr rfl
  | false =>
    cases hfound
    exact Found.only_empty

theorem gives_ofTable (h : Demand.Anchored demands) : Gives docs demands (ofTable demands) := by
  have hrun : ((ofTable demands).run docs).Only fun d => d ∈ docs ∧ d.MeetsAll demands := by
    refine only_ifDecided h fun hdecided => ?_
    have hasked : (ask (without [] demands) (.ofList docs)).Only
        fun d => d ∈ docs ∧ d.MeetsAll (without [] demands) := only_ask fun _ hd => hd
    exact fun d hd => ⟨(hasked d hd).1, meetsAll_of_without (hdecided d)
      (fun i (hi : i ∈ []) => nomatch hi) (hasked d hd).2⟩
  exact ⟨hrun, List.forall_mem_singleton.mpr hrun⟩

/-- What is asked of rows that are looked up. -/
theorem only_ask_lookUp {lookups : List Lookup} (hlookups : LooksUp demands lookups)
    (h : Demand.Anchored demands) (hdecided : ∀ d : Document, d.MeetsAll (demands.filter Demand.isDecided))
    {reversed : Bool} {rows : List Document}
    (hrows : ∀ d ∈ rows, d ∈ lookUp (lookups.map (·.test)) reversed docs) :
    (ask (keysFirst (without (lookups.map (·.place)) demands)) (.ofList rows)).Only
      fun d => d ∈ docs ∧ d.MeetsAll demands := by
  have hasked : (ask (keysFirst (without (lookups.map (·.place)) demands)) (.ofList rows)).Only
      fun d => d ∈ rows ∧ d.MeetsAll (keysFirst (without (lookups.map (·.place)) demands)) :=
    only_ask fun _ hd => hd
  intro d hd
  obtain ⟨hmem, hothers⟩ := hasked d hd
  obtain ⟨hdocs, htests⟩ := mem_lookUp.mp (hrows d hmem)
  refine ⟨hdocs, hlookups.meetsAll h (hdecided d) (meetsAll_keysFirst.mp hothers) fun l hl => ?_⟩
  exact htests l.test (List.mem_map_of_mem hl)

theorem gives_ofLookups (h : Demand.Anchored demands) {lookups : List Lookup}
    (hlookups : LooksUp demands lookups) (reversed : Bool) :
    Gives docs demands (ofLookups demands lookups reversed) := by
  rw [ofLookups_eq]
  constructor
  · exact only_ifDecided h fun hdecided => only_ask_lookUp hlookups h hdecided fun d hd => hd
  · intro x hx
    rw [runs] at hx
    cases hb : Demand.decide (demands.filter Demand.isDecided) with
    | error e =>
      rw [hb, List.mem_singleton] at hx
      rw [hx]
      exact Found.only_fail e
    | ok b =>
      rw [hb] at hx
      cases b with
      | false => cases hx
      | true =>
        obtain ⟨part, hpart, rfl⟩ := List.mem_map.mp hx
        exact only_ask_lookUp hlookups h (fun d => (h.meetsAll_decided hb d).mpr rfl)
          fun d hd => Found.mem_of_mem_splitBy hpart hd

theorem only_runAll {asked : List Demand} {makeBranch : List Demand → Plan}
    {branches : List (List Demand)}
    (hbranches : ∀ branch ∈ branches, Gives docs branch (makeBranch branch)) (seen : List Document) :
    (runAll docs asked seen (branches.map makeBranch)).Only
      fun d => d ∈ docs ∧ d.MeetsAll asked ∧ ∃ branch ∈ branches, d.MeetsAll branch := by
  induction branches generalizing seen with
  | nil => exact Found.only_empty
  | cons branch branches ih =>
    obtain ⟨hbranch, hbranches⟩ := List.forall_mem_cons.mp hbranches
    rw [List.map_cons, runAll]
    refine Found.Only.append (fun d hd => ?_) fun d hd => ?_
    · obtain ⟨⟨hdocs, hmeets⟩, hasked⟩ := only_ask (hbranch.run.filter _) d hd
      exact ⟨hdocs, hasked, branch, List.mem_cons_self, hmeets⟩
    · obtain ⟨hdocs, hasked, other, hother, hmeets⟩ := ih hbranches _ d hd
      exact ⟨hdocs, hasked, other, List.mem_cons_of_mem _ hother, hmeets⟩

theorem gives_ofClauses (h : Demand.Anchored demands) {makeBranch : List Demand → Plan}
    (hbranch : ∀ demands, Demand.Anchored demands → Gives docs demands (makeBranch demands))
    {place : Nat} {joined : Demand} (hplace : demands[place]? = some joined) :
    Gives docs demands (ofClauses makeBranch demands place joined) := by
  let others := without [place] demands
  let branches := joined.disjuncts.map fun branch =>
    branch.conjuncts ++ others.filter fun a => a.term.isUseful
  have hbranches : ∀ branch ∈ branches, Gives docs branch (makeBranch branch) := by
    intro branch hmem
    obtain ⟨b, hb, rfl⟩ := List.mem_map.mp hmem
    exact hbranch _ (anchored_branch h hplace hb)
  have hall : (∀ d : Document, d.MeetsAll (demands.filter Demand.isDecided)) →
      (runAll docs others [] (branches.map makeBranch)).Only
        fun d => d ∈ docs ∧ d.MeetsAll demands := by
    intro hdecided d hd
    obtain ⟨hdocs, hothers, branch, hmem, hmeets⟩ := only_runAll hbranches [] d hd
    obtain ⟨b, hb, rfl⟩ := List.mem_map.mp hmem
    exact ⟨hdocs, meetsAll_of_clause hplace hb (hdecided d) hothers
      (Document.meetsAll_append.mp hmeets).1⟩
  rw [List.map_map] at hall
  have hrun : ((ofClauses makeBranch demands place joined).run docs).Only
      fun d => d ∈ docs ∧ d.MeetsAll demands := only_ifDecided h hall
  exact ⟨hrun, List.forall_mem_singleton.mpr hrun⟩

/-- No access path leads to anything but rows that meet all demands. -/
theorem gives_ofPath (h : Demand.Anchored demands) {makeBranch : List Demand → Plan}
    (hbranch : ∀ demands, Demand.Anchored demands → Gives docs demands (makeBranch demands))
    (reversed : Bool) (p : AccessPath) :
    Gives docs demands (ofPath makeBranch (Clause.ofDemands demands) demands reversed p) := by
  rw [ofPath]
  split
  case h_1 => exact gives_ofTable h
  case h_2 =>
    refine gives_ofLookups h (fun l hl => ?_) reversed
    obtain ⟨r, -, hr⟩ := List.mem_filterMap.mp hl
    exact Lookup.exists_demand hr
  case h_3 =>
    split
    case h_1 place joined hused =>
      obtain ⟨r, -, hr⟩ := Option.bind_eq_some_iff.mp hused
      obtain ⟨a, ha, hpair⟩ := Option.map_eq_some_iff.mp hr
      cases hpair
      exact gives_ofClauses h hbranch ha
    case h_2 => exact gives_ofTable h

theorem gives_makeInner (onlyKeys : Bool) (depth : Nat) : ∀ demands, Demand.Anchored demands →
    Gives docs demands (makeInner onlyKeys depth demands) := by
  induction depth with
  | zero => exact fun demands h => gives_ofTable h
  | succ depth ih => exact fun demands h => gives_ofPath h ih false _

/-- **The plan for some demands finds nothing but rows that meet them**, whatever fails
behind them. -/
theorem gives_make (g : Goal) (h : Demand.Anchored demands) :
    Gives docs demands (make g demands).plan :=
  gives_ofPath h (gives_makeInner _ _) _ _

end Plan

/-! ### Targets -/

/-- A candidate is a document of one of some targets, and says of which index. -/
def Candidate.IsIn (db : Database) (targets : List Target) (c : Candidate) : Prop :=
  ∃ t ∈ targets, c.index = t.index ∧ c.document ∈ (db.indexTable? t.table).getD []

theorem Candidate.IsIn.of_mem {db : Database} {targets : List Target} {t : Target} {c : Candidate}
    (h : c.IsIn db [t]) (ht : t ∈ targets) : c.IsIn db targets := by
  obtain ⟨t', ht', hc⟩ := h
  rw [List.mem_singleton.mp ht'] at hc
  exact ⟨t, ht, hc⟩

namespace Database

variable {db : Database} {types : List String} {filter : Option Condition} {t : Target}

/-- The checks of a source as demands. -/
theorem meetsAll_sourceChecks {d : Document} :
    d.MeetsAll (Demand.ofChecks (sourceChecks types filter)) ↔ d.IsSelected types filter := by
  rw [meetsAll_ofChecks, Document.isSelected_iff]
  exact Iff.rfl

theorem only_ofTarget {docs : List Document} (hdocs : db.targetRows t = .ok docs)
    {found : Found Document} {P : Document → Prop} (hfound : found.Only fun d => d ∈ docs ∧ P d) :
    (ofTarget t found).Only fun c => c.IsIn db [t] ∧ P c.document := by
  refine hfound.map fun d hd => ⟨⟨t, List.mem_singleton_self t, rfl, ?_⟩, hd.2⟩
  rw [targetRows_eq_ok hdocs]
  exact hd.1

theorem only_inTarget {demands : List Demand} (h : Demand.Anchored demands) (t : Target) :
    (db.inTarget demands t).Only fun c => c.IsIn db [t] ∧ c.document.MeetsAll demands := by
  refine Found.only_ofExcept fun found hfound => ?_
  obtain ⟨docs, hdocs, hfound⟩ := bind_eq_ok.mp hfound
  cases hfound
  exact only_ofTarget hdocs (Plan.gives_make {} h).run

theorem only_concat_inTarget {demands : List Demand} (h : Demand.Anchored demands)
    (targets : List Target) : (Found.concat (targets.map (db.inTarget demands))).Only
      fun c => c.IsIn db targets ∧ c.document.MeetsAll demands := by
  refine Found.only_concat fun x hx => ?_
  obtain ⟨t, ht, rfl⟩ := List.mem_map.mp hx
  exact fun c hc => (only_inTarget h t c hc).imp_left fun hin => hin.of_mem ht

theorem only_eachInTurn (targets : List Target) :
    (db.eachInTurn (sourceChecks types filter) targets).Only
      fun c => c.IsIn db targets ∧ c.document.IsSelected types filter := by
  simp only [← meetsAll_sourceChecks]
  exact only_concat_inTarget (Demand.anchored_ofChecks _) targets

theorem only_allTogether (targets : List Target) :
    (db.allTogether (sourceChecks types filter) targets).Only
      fun c => c.IsIn db targets ∧ c.document.IsSelected types filter := by
  rw [allTogether_eq]
  split
  case isTrue => exact Found.only_fail _
  case isFalse =>
    refine Found.only_ofExcept fun found hfound => ?_
    obtain ⟨b, hb, hfound⟩ := bind_eq_ok.mp hfound
    cases b with
    | false =>
      cases hfound
      exact Found.only_empty
    | true =>
      cases hfound
      refine (only_concat_inTarget (anchored_settledDemands _) targets).filterM fun c hc hholds => ?_
      have hdecided := ((Demand.anchored_ofChecks (sourceChecks types filter)).meetsAll_decided hb
        c.document).mpr rfl
      have hpending := (Demand.passes_iff_of_allHold hholds).mpr rfl
      refine ⟨hc.1, Document.isSelected_iff.mpr ?_⟩
      exact (meetsAll_pendingDemands hdecided).mp hpending

/-! ### Pages -/

/-- A row of a page shows a selected document of one of some targets. -/
def Shown (db : Database) (targets : List Target) (types : List String)
    (filter : Option Condition) (row : Row) : Prop :=
  ∃ c : Candidate, c.IsIn db targets ∧ c.document.IsSelected types filter ∧ row = c.pageRow

/-- Rows of a target with the cells that they are sorted by. -/
def sortedRows (clauses : List SortClause) (t : Target) (found : Found Document) : Found SortedRow :=
  (ofTarget t found).mapM (·.sortedRow clauses)

/-- How the rows that a plan finds in a target are brought into an order. -/
inductive Sorts (clauses : List SortClause) (count : Option Nat) (t : Target)
    (docs : List Document) (plan : Plan) : Found SortedRow → Prop where
  /-- They are found in this order. -/
  | found : Sorts clauses count t docs plan (sortedRows clauses t (plan.run docs))
  /-- They are found in this order, and no field is looked at. -/
  | unseen : Sorts clauses count t docs plan
      ((ofTarget t (plan.run docs)).map fun c => ⟨[], c.pageRow⟩)
  /-- They are found in the order of some clauses, and sorted by the others. -/
  | inBlocks (n : Nat) : Sorts clauses count t docs plan
      ((sortedRows clauses t (plan.run docs)).sortedInBlocks (SortedRow.agree n clauses)
        (SortedRow.le clauses))
  /-- The least of them are taken run by run. -/
  | inRuns {n : Nat} (hcount : count = some n) : Sorts clauses count t docs plan (.ofExcept do
      return .ofList (← Found.least (SortedRow.le clauses) n
        ((plan.runs docs).map (sortedRows clauses t))))
  /-- They are sorted. -/
  | mixed : Sorts clauses count t docs plan
      ((sortedRows clauses t (plan.run docs)).sorted (SortedRow.le clauses))

/-- **The rows of a target are sorted in one of a few ways.** -/
theorem sorts_sortedTarget {docs : List Document} (hdocs : db.targetRows t = .ok docs)
    (clauses : List SortClause) (count : Option Nat) (g : Goal) (checks : List Check) :
    Sorts clauses count t docs (Plan.make g (Demand.ofChecks checks)).plan
      (db.sortedTarget clauses count g checks t) := by
  rw [sortedTarget, hdocs]
  simp only [bind, Except.bind]
  split
  case h_1 =>
    split
    case isTrue => exact .found
    case isFalse => exact .unseen
  case h_2 n _ => exact .inBlocks n
  case h_3 => exact .inRuns rfl
  case h_4 => exact .mixed

theorem only_sortedRows {targets : List Target} (clauses : List SortClause) {x : Found Candidate}
    (hx : x.Only fun c => c.IsIn db targets ∧ c.document.IsSelected types filter) :
    (x.mapM (·.sortedRow clauses)).Only fun r => db.Shown targets types filter r.row := by
  refine hx.mapM fun c r hc hr => ?_
  obtain ⟨cells, -, hr⟩ := bind_eq_ok.mp hr
  cases hr
  exact ⟨c, hc.1, hc.2, rfl⟩

theorem only_sortedTarget (clauses : List SortClause) (count : Option Nat) (g : Goal) (t : Target) :
    (db.sortedTarget clauses count g (sourceChecks types filter) t).Only
      fun r => db.Shown [t] types filter r.row := by
  cases hdocs : db.targetRows t with
  | error e =>
    rw [sortedTarget, hdocs]
    exact Found.only_fail e
  | ok docs =>
    have hgives : Plan.Gives docs (Demand.ofChecks (sourceChecks types filter))
        (Plan.make g (Demand.ofChecks (sourceChecks types filter))).plan :=
      Plan.gives_make g (Demand.anchored_ofChecks _)
    have htarget : ∀ x : Found Document,
        (x.Only fun d => d ∈ docs ∧ d.MeetsAll (Demand.ofChecks (sourceChecks types filter))) →
        (ofTarget t x).Only fun c => c.IsIn db [t] ∧ c.document.IsSelected types filter := by
      intro x hx
      simp only [meetsAll_sourceChecks] at hx
      exact only_ofTarget hdocs hx
    have hrows := fun x hx => only_sortedRows clauses (htarget x hx)
    -- the way of sorting is chosen by cost: whichever it is, its rows come from the plan
    have hsorts := sorts_sortedTarget hdocs clauses count g (sourceChecks types filter)
    generalize db.sortedTarget clauses count g (sourceChecks types filter) t = x at hsorts ⊢
    cases hsorts with
    | found => exact hrows _ hgives.run
    | unseen => exact (htarget _ hgives.run).map fun c hc => ⟨c, hc.1, hc.2, rfl⟩
    | inBlocks n => exact (hrows _ hgives.run).sortedInBlocks _ _
    | inRuns hcount =>
      refine Found.only_ofExcept fun found hfound => ?_
      obtain ⟨held, hheld, hfound⟩ := bind_eq_ok.mp hfound
      cases hfound
      refine Found.only_least (fun x hx => ?_) hheld
      obtain ⟨run, hrun, rfl⟩ := List.mem_map.mp hx
      exact hrows run (hgives.runs run hrun)
    | mixed => exact (hrows _ hgives.run).sorted _

theorem only_mergeAll {P : SortedRow → Prop} (le : SortedRow → SortedRow → Bool) (depth : Nat)
    {searches : List (Found SortedRow)} (h : ∀ x ∈ searches, x.Only P) :
    (mergeAll le depth searches).Only P := by
  fun_induction mergeAll le depth searches with
  | case1 => exact Found.only_empty
  | case2 _ x => exact h x (List.mem_singleton_self x)
  | case3 xs => exact Found.only_concat h
  | case4 xs depth _ _ n ihFirst ihRest =>
    exact (ihFirst fun x hx => h x (List.mem_of_mem_take hx)).merge le
      (ihRest fun x hx => h x (List.mem_of_mem_drop hx))

theorem only_mergedTargets (clauses : List SortClause) (count : Option Nat)
    (targets : List Target) :
    (db.mergedTargets clauses count (sourceChecks types filter) targets).Only
      fun r => db.Shown targets types filter r.row := by
  refine only_mergeAll _ _ fun x hx => ?_
  obtain ⟨t, ht, rfl⟩ := List.mem_map.mp hx
  intro r hr
  obtain ⟨c, hin, hselected, hrow⟩ := only_sortedTarget clauses count _ t r hr
  exact ⟨c, hin.of_mem ht, hselected, hrow⟩

/-- The rows that a page is taken from. -/
theorem only_pageRows (clauses : List SortClause) (size offset : Int64) (targets : List Target) :
    (db.pageRows clauses size offset (.documents targets types filter)).Only
      (db.Shown targets types filter) := by
  match targets with
  | [t] => exact (only_sortedTarget clauses _ _ t).map fun r hr => hr
  | [] | _ :: _ :: _ =>
    simp only [pageRows]
    split
    case isTrue => exact (only_eachInTurn _).map fun c hc => ⟨c, hc.1, hc.2, rfl⟩
    case isFalse =>
      split
      case isTrue => exact (only_mergedTargets clauses _ _).map fun r hr => hr
      case isFalse => exact ((only_sortedRows _ (only_allTogether _)).sorted _).map fun r hr => hr

/-- **A page shows nothing but selected documents of its targets**, whatever fails behind
the last of them. -/
theorem read_page {targets : List Target} {clauses : List SortClause} {size offset : Int64}
    {rows : List Row}
    (h : db.read (.page (.documents targets types filter) clauses size offset) = .ok rows) :
    ∀ row ∈ rows, db.Shown targets types filter row := by
  obtain ⟨first, hfirst, hrows⟩ := bind_eq_ok.mp h
  cases hrows
  exact fun row hrow =>
    (only_pageRows clauses size offset targets).upTo hfirst row (List.mem_of_mem_drop hrow)

end Database

end DocSearch
