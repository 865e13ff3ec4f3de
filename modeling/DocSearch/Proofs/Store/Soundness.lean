import DocSearch.Proofs.Store.Lookup

/-!
# What plans find

However rows are looked for, in the table, in a part of the index or in several parts one
after the other, those are found that meet all demands, each of them once.  Nothing here
depends on which access path is taken, so the estimates that choose one do not matter.

A plan may fail, and then nothing is said about it.  If it does not, then nothing that it
came upon has failed, and what it did not come upon does not matter.

## Main definitions

* `Plan.Finds` — a plan finds the rows that meet some demands, unless it fails.
* `KeyedRows` — no two rows of a table have the same key.

## Main results

* `Plan.finds_ofPath` — every access path leads to these rows.
* `Plan.finds_make` — the plan for some demands finds the rows that meet them.
-/

namespace DocSearch

open Steps

/-! ### Rows that are found without failure -/

namespace Found

variable {α β : Type}

/-- What is given where nothing fails, by a function that agrees with the one that may fail. -/
theorem ofRows_of_failure_eq_none {f : α → Except EvaluationError (Option β)} {g : α → Option β}
    {failure : Option EvaluationError} {as : List α} (h : (ofRows f failure as).failure = none)
    (hg : ∀ a o, f a = .ok o → g a = o) :
    failure = none ∧ (ofRows f failure as).rows = as.filterMap g := by
  induction as with
  | nil => exact ⟨h, rfl⟩
  | cons a as ih =>
    rw [ofRows] at h ⊢
    cases ha : f a with
    | error e =>
      rw [ha] at h
      cases h
    | ok o =>
      rw [ha] at h
      cases o with
      | none =>
        rw [List.filterMap_cons, hg a none ha]
        exact ih h
      | some b =>
        obtain ⟨hfailure, hrows⟩ := ih h
        rw [List.filterMap_cons, hg a (some b) ha, ← hrows]
        exact ⟨hfailure, rfl⟩

theorem filterM_of_failure_eq_none {p : α → Except EvaluationError Bool} {x : Found α}
    {q : α → Bool} (h : (x.filterM p).failure = none) (hq : ∀ a b, p a = .ok b → q a = b) :
    x.failure = none ∧ (x.filterM p).rows = x.rows.filter q := by
  rw [← List.filterMap_eq_filter]
  refine ofRows_of_failure_eq_none h fun a o ho => ?_
  obtain ⟨b, hb, rfl⟩ := map_eq_ok.mp ho
  rw [Option.guard, hq a b hb]

/-- Each row gives one row. -/
theorem mapM_of_failure_eq_none {f : α → Except EvaluationError β} {x : Found α}
    (h : (x.mapM f).failure = none) :
    x.failure = none ∧ x.rows.map f = (x.mapM f).rows.map .ok := by
  obtain ⟨rows, failure⟩ := x
  induction rows with
  | nil => exact ⟨h, rfl⟩
  | cons a rows ih =>
    rw [mapM, filterMapM, ofRows] at h ⊢
    cases ha : f a with
    | error e =>
      rw [ha] at h
      cases h
    | ok b =>
      rw [ha] at h
      obtain ⟨hfailure, hrows⟩ := ih h
      refine ⟨hfailure, ?_⟩
      rw [List.map_cons, ha, hrows]
      rfl

theorem toExcept_mapM_eq_ok {f : α → Except EvaluationError β} {x : Found α} {bs : List β}
    (h : (x.mapM f).toExcept = .ok bs) : x.failure = none ∧ x.rows.map f = bs.map .ok := by
  rw [toExcept_eq_ok_iff] at h
  obtain ⟨hfailure, hrows⟩ := mapM_of_failure_eq_none (congrArg failure h)
  rw [h] at hrows
  exact ⟨hfailure, hrows⟩

theorem append_of_failure_eq_none {x y : Found α} (h : (x.append y).failure = none) :
    x.failure = none ∧ y.failure = none ∧ (x.append y).rows = x.rows ++ y.rows := by
  rw [append] at h ⊢
  cases hx : x.failure with
  | some e =>
    rw [hx] at h
    exact absurd (hx.symm.trans h) (by simp)
  | none =>
    rw [hx] at h
    exact ⟨rfl, h, rfl⟩

theorem ofExcept_of_failure_eq_none {x : Except EvaluationError (Found α)}
    (h : (ofExcept x).failure = none) : ∃ found, x = .ok found ∧ ofExcept x = found := by
  cases x with
  | error e => cases h
  | ok found => exact ⟨found, rfl, rfl⟩

end Found

/-! ### Demands that are asked -/

/-- A document meets all of some demands. -/
def Document.MeetsAll (d : Document) (demands : List Demand) : Prop := ∀ a ∈ demands, a.Passes d

instance (d : Document) (demands : List Demand) : Decidable (d.MeetsAll demands) :=
  inferInstanceAs (Decidable (∀ a ∈ demands, a.Passes d))

theorem Document.meetsAll_append {d : Document} {as bs : List Demand} :
    d.MeetsAll (as ++ bs) ↔ d.MeetsAll as ∧ d.MeetsAll bs := List.forall_mem_append

theorem Demand.allHold_congr {d e : Document} {demands : List Demand}
    (h : ∀ a ∈ demands, a.holds d = a.holds e) : allHold d demands = allHold e demands := by
  induction demands with
  | nil => rfl
  | cons a as ih =>
    rw [List.forall_mem_cons] at h
    rw [allHold, allHold, h.1, ih h.2]

/-- What is decided before any row is decided for all rows. -/
theorem Demand.Anchored.meetsAll_decided {demands : List Demand} (h : Anchored demands) {b : Bool}
    (hb : decide (demands.filter isDecided) = .ok b) (d : Document) :
    d.MeetsAll (demands.filter isDecided) ↔ b = true := by
  have hd : allHold d (demands.filter isDecided) = .ok b := by
    rw [← hb, decide]
    refine allHold_congr fun a ha => ?_
    obtain ⟨ha, hdecided⟩ := List.mem_filter.mp ha
    exact h.holds_of_isDecided ha hdecided d ⟨"", "", .null⟩
  exact passes_iff_of_allHold hd

/-! ### Plans -/

/-- No two rows have the same key. -/
def KeyedRows (docs : List Document) : Prop := docs.Pairwise fun d e => d.sameKey e = false

theorem KeyedRows.nodup {docs : List Document} (h : KeyedRows docs) : docs.Nodup := by
  refine h.imp fun {d e} hkey heq => ?_
  rw [heq] at hkey
  simp [Document.sameKey] at hkey

/-- Documents that have different keys are at different keys. -/
theorem KeyedRows.keys_nodup {docs : List Document} (h : KeyedRows docs) :
    (docs.map fun d => (d.docType, d.id)).Nodup := by
  refine List.pairwise_map.mpr (h.imp fun {d e} hkey heq => ?_)
  obtain ⟨htype, hid⟩ := Prod.mk.inj heq
  simp [Document.sameKey, htype, hid] at hkey

theorem Document.sameKey_comm (d e : Document) : d.sameKey e = e.sameKey d := by
  simp only [sameKey, Bool.beq_comm]

theorem KeyedRows.eq_of_sameKey {docs : List Document} (h : KeyedRows docs) {d e : Document}
    (hd : d ∈ docs) (he : e ∈ docs) (hkey : d.sameKey e = true) : d = e := by
  induction docs with
  | nil => cases hd
  | cons x xs ih =>
    obtain ⟨hx, hxs⟩ := List.pairwise_cons.mp h
    rcases List.mem_cons.mp hd with hdx | hd <;> rcases List.mem_cons.mp he with hex | he
    · rw [hdx, hex]
    · rw [hdx] at hkey
      exact nomatch (hx e he).symm.trans hkey
    · rw [hex, Document.sameKey_comm] at hkey
      exact nomatch (hx d hd).symm.trans hkey
    · exact ih hxs hd he

namespace Plan

variable {docs : List Document} {demands : List Demand}

/-- A plan finds the rows that meet some demands, each of them once, unless it fails. -/
def Finds (docs : List Document) (demands : List Demand) (plan : Plan) : Prop :=
  (plan.run docs).failure = none → (plan.run docs).rows.Nodup ∧
    ∀ d, d ∈ (plan.run docs).rows ↔ d ∈ docs ∧ d.MeetsAll demands

theorem ask_of_failure_eq_none {x : Found Document} (h : (ask demands x).failure = none) :
    x.failure = none ∧ (ask demands x).rows = x.rows.filter fun d => d.MeetsAll demands :=
  Found.filterM_of_failure_eq_none h fun d b hb => by
    rw [Bool.eq_iff_iff, decide_eq_true_iff]
    exact Demand.passes_iff_of_allHold hb

/-- Demands that are decided hold for all rows, or nothing is found. -/
theorem ifDecided_of_failure_eq_none {x : Found Document} (h : Demand.Anchored demands)
    (hfailure : (ifDecided (demands.filter Demand.isDecided) x).failure = none) :
    ((∀ d : Document, d.MeetsAll (demands.filter Demand.isDecided)) ∧
        ifDecided (demands.filter Demand.isDecided) x = x) ∨
      ((∀ d : Document, ¬ d.MeetsAll (demands.filter Demand.isDecided)) ∧
        (ifDecided (demands.filter Demand.isDecided) x).rows = []) := by
  rw [ifDecided] at hfailure ⊢
  cases hb : Demand.decide (demands.filter Demand.isDecided) with
  | error e =>
    rw [hb] at hfailure
    cases hfailure
  | ok b =>
    cases b with
    | true => exact .inl ⟨fun d => (h.meetsAll_decided hb d).mpr rfl, rfl⟩
    | false => exact .inr ⟨fun d hd => (nomatch (h.meetsAll_decided hb d).mp hd), rfl⟩

theorem mem_without {places : List Nat} {a : Demand} (h : a ∈ without places demands) :
    a ∈ demands := by
  obtain ⟨⟨a, i⟩, hai, rfl⟩ := List.mem_map.mp h
  exact List.mem_of_getElem? (List.mem_zipIdx_iff_getElem?.mp (List.mem_filter.mp hai).1)

/-- Each demand is decided, stands at one of some places, or is another one. -/
theorem mem_cases {a : Demand} (places : List Nat) (ha : a ∈ demands) :
    a ∈ demands.filter Demand.isDecided ∨ (∃ i ∈ places, demands[i]? = some a) ∨
      a ∈ without places demands := by
  cases hdecided : a.isDecided with
  | true => exact .inl (List.mem_filter.mpr ⟨ha, hdecided⟩)
  | false =>
    obtain ⟨i, hi⟩ := List.mem_iff_getElem?.mp ha
    by_cases hplace : i ∈ places
    · exact .inr (.inl ⟨i, hplace, hi⟩)
    · refine .inr (.inr (List.mem_map.mpr ⟨(a, i), List.mem_filter.mpr ⟨?_, ?_⟩, rfl⟩))
      · exact List.mem_zipIdx_iff_getElem?.mpr hi
      · simp [hdecided, hplace]

/-- Demands are met if those that are decided, those at some places and all others are. -/
theorem meetsAll_of_without {places : List Nat} {d : Document}
    (hdecided : d.MeetsAll (demands.filter Demand.isDecided))
    (hplaces : ∀ i ∈ places, ∀ a, demands[i]? = some a → a.Passes d)
    (hothers : d.MeetsAll (without places demands)) : d.MeetsAll demands := by
  intro a ha
  rcases mem_cases places ha with ha | ⟨i, hi, ha⟩ | ha
  · exact hdecided a ha
  · exact hplaces i hi a ha
  · exact hothers a ha

/-- A plan that decides some demands before it looks at any row. -/
theorem finds_of_ifDecided {plan : Plan} {x : Found Document} (h : Demand.Anchored demands)
    (hrun : plan.run docs = ifDecided (demands.filter Demand.isDecided) x)
    (hx : (∀ d : Document, d.MeetsAll (demands.filter Demand.isDecided)) → x.failure = none →
      x.rows.Nodup ∧ ∀ d, d ∈ x.rows ↔ d ∈ docs ∧ d.MeetsAll demands) :
    Finds docs demands plan := by
  intro hfailure
  rw [hrun] at hfailure ⊢
  rcases ifDecided_of_failure_eq_none h hfailure with ⟨hdecided, hfound⟩ | ⟨hdecided, hempty⟩
  · rw [hfound] at hfailure ⊢
    exact hx hdecided hfailure
  · rw [hempty]
    refine ⟨List.nodup_nil, fun d => iff_of_false (by simp) fun hd => hdecided d fun a ha => ?_⟩
    exact hd.2 a (List.mem_filter.mp ha).1

theorem finds_ofTable (hdocs : KeyedRows docs) (h : Demand.Anchored demands) :
    Finds docs demands (ofTable demands) := by
  refine finds_of_ifDecided h rfl fun hdecided hfailure => ?_
  obtain ⟨-, hrows⟩ := ask_of_failure_eq_none hfailure
  rw [hrows]
  refine ⟨hdocs.nodup.filter _, fun d => ?_⟩
  rw [List.mem_filter, decide_eq_true_iff]
  refine and_congr_right fun _ => ⟨fun hothers => ?_, fun hd a ha => hd a (mem_without ha)⟩
  exact meetsAll_of_without (hdecided d) (fun i (hi : i ∈ []) => nomatch hi) hothers

/-! ### Lookups -/

theorem satisfies_iff {d : Document} {t : Test} : d.satisfies t = true ↔ d.truth t = some true := by
  rw [Document.satisfies, Document.truth]
  cases d.holds t with
  | error e => simp
  | ok b => rcases b with _ | _ | _ <;> simp

theorem mem_lookUp {tests : List Test} {reversed : Bool} {d : Document} :
    d ∈ lookUp tests reversed docs ↔ d ∈ docs ∧ ∀ t ∈ tests, d.truth t = some true := by
  have hmem : d ∈ inKeyOrder (docs.filter fun d => tests.all d.satisfies) ↔
      d ∈ docs ∧ ∀ t ∈ tests, d.truth t = some true := by
    rw [inKeyOrder, List.mem_mergeSort, List.mem_filter, List.all_eq_true]
    simp only [satisfies_iff]
  cases reversed <;> simp [lookUp, hmem]

theorem nodup_lookUp (tests : List Test) (reversed : Bool) (hdocs : docs.Nodup) :
    (lookUp tests reversed docs).Nodup := by
  have hnodup : (inKeyOrder (docs.filter fun d => tests.all d.satisfies)).Nodup :=
    (List.mergeSort_perm _ _).nodup_iff.mpr (hdocs.filter _)
  cases reversed with
  | false => exact hnodup
  | true => exact (List.reverse_perm _).nodup_iff.mpr hnodup

/-- Tests that are looked up at the places of demands. -/
def LooksUp (demands : List Demand) (lookups : List Lookup) : Prop :=
  ∀ l ∈ lookups, ∃ a, demands[l.place]? = some a ∧
    ∀ d : Document, a.check.Passes d ↔ d.truth l.test = some true

/-- What is looked up holds for the rows that meet all demands. -/
theorem LooksUp.truth_of_meetsAll {lookups : List Lookup} (hlookups : LooksUp demands lookups)
    (h : Demand.Anchored demands) {d : Document} (hd : d.MeetsAll demands) :
    ∀ l ∈ lookups, d.truth l.test = some true := by
  intro l hl
  obtain ⟨a, ha, htruth⟩ := hlookups l hl
  have ha : a ∈ demands := List.mem_of_getElem? ha
  have hself : d.withKeys a.given = d :=
    h.withKeys (fun f hf hgiven => (Demand.passes_of_given_eq_nil hgiven).mp (hd f hf)) a ha
  have hpasses : a.check.Passes (d.withKeys a.given) := hd a ha
  rw [hself] at hpasses
  exact (htruth d).mp hpasses

/-- Demands are met if those that are looked up hold and all others are met. -/
theorem LooksUp.meetsAll {lookups : List Lookup} (hlookups : LooksUp demands lookups)
    (h : Demand.Anchored demands) {d : Document}
    (hdecided : d.MeetsAll (demands.filter Demand.isDecided))
    (hothers : d.MeetsAll (without (lookups.map (·.place)) demands))
    (htests : ∀ l ∈ lookups, d.truth l.test = some true) : d.MeetsAll demands := by
  have hplaces : ∀ i ∈ lookups.map (·.place), ∀ a, demands[i]? = some a → a.check.Passes d := by
    intro i hi a ha
    obtain ⟨l, hl, rfl⟩ := List.mem_map.mp hi
    obtain ⟨a', ha', htruth⟩ := hlookups l hl
    obtain rfl : a' = a := Option.some.inj (ha'.symm.trans ha)
    exact (htruth d).mpr (htests l hl)
  -- the demands that fix keys are met, however they are asked, so no key is replaced
  have hself : ∀ a ∈ demands, d.withKeys a.given = d := by
    refine h.withKeys fun f hf hgiven => ?_
    rcases mem_cases (lookups.map (·.place)) hf with hf | ⟨i, hi, hf⟩ | hf
    · exact (Demand.passes_of_given_eq_nil hgiven).mp (hdecided f hf)
    · exact hplaces i hi f hf
    · exact (Demand.passes_of_given_eq_nil hgiven).mp (hothers f hf)
  refine meetsAll_of_without hdecided (fun i hi a ha => ?_) hothers
  rw [Demand.Passes, hself a (List.mem_of_getElem? ha)]
  exact hplaces i hi a ha

/-- Demands in the order in which they are asked: first what the index can tell. -/
def keysFirst (asked : List Demand) : List Demand :=
  asked.filter Demand.readsKeyOnly ++ asked.filter (not ∘ Demand.readsKeyOnly)

theorem meetsAll_keysFirst {d : Document} {asked : List Demand} :
    d.MeetsAll (keysFirst asked) ↔ d.MeetsAll asked := by
  simp only [keysFirst, Document.MeetsAll, List.mem_append, List.mem_filter, Function.comp,
    Bool.not_eq_true']
  constructor
  · intro hd a ha
    cases hkey : a.readsKeyOnly with
    | true => exact hd a (.inl ⟨ha, hkey⟩)
    | false => exact hd a (.inr ⟨ha, hkey⟩)
  · rintro hd a (⟨ha, -⟩ | ⟨ha, -⟩) <;> exact hd a ha

theorem ofLookups_eq (demands : List Demand) (lookups : List Lookup) (reversed : Bool) :
    ofLookups demands lookups reversed = index (demands.filter Demand.isDecided)
      (lookups.map (·.test)) reversed (keysFirst (without (lookups.map (·.place)) demands)) := by
  rw [ofLookups, List.partition_eq_filter_filter, keysFirst]

theorem finds_ofLookups (hdocs : KeyedRows docs) (h : Demand.Anchored demands)
    {lookups : List Lookup} (hlookups : LooksUp demands lookups) (reversed : Bool) :
    Finds docs demands (ofLookups demands lookups reversed) := by
  rw [ofLookups_eq]
  refine finds_of_ifDecided h rfl fun hdecided hfailure => ?_
  obtain ⟨-, hrows⟩ := ask_of_failure_eq_none hfailure
  rw [hrows]
  refine ⟨(nodup_lookUp _ _ hdocs.nodup).filter _, fun d => ?_⟩
  rw [List.mem_filter, decide_eq_true_iff, meetsAll_keysFirst,
    show d ∈ (Found.ofList (lookUp _ reversed docs)).rows ↔ _ from mem_lookUp, and_assoc]
  refine and_congr_right fun _ => ⟨fun ⟨htests, hd⟩ => ?_, fun hd => ⟨?_, fun a ha => ?_⟩⟩
  · exact hlookups.meetsAll h (hdecided d) hd fun l hl => htests l.test (List.mem_map_of_mem hl)
  · rw [List.forall_mem_map]
    exact hlookups.truth_of_meetsAll h hd
  · exact hd a (mem_without ha)

/-! ### Several plans -/

/-- What several plans find, each for demands of its own, that meets some more demands and
has not been seen before. -/
theorem runAll_of_failure_eq_none (hdocs : KeyedRows docs) {asked : List Demand}
    {makeBranch : List Demand → Plan} {branches : List (List Demand)}
    (hbranches : ∀ branch ∈ branches, Finds docs branch (makeBranch branch))
    {seen : List Document} (hseen : ∀ e ∈ seen, e ∈ docs)
    (hfailure : (runAll docs asked seen (branches.map makeBranch)).failure = none) :
    (runAll docs asked seen (branches.map makeBranch)).rows.Nodup ∧
      ∀ d, d ∈ (runAll docs asked seen (branches.map makeBranch)).rows ↔
        d ∈ docs ∧ d ∉ seen ∧ d.MeetsAll asked ∧ ∃ branch ∈ branches, d.MeetsAll branch := by
  induction branches generalizing seen with
  | nil => exact ⟨List.nodup_nil, fun d => by simp [runAll, Found.empty, Found.ofList]⟩
  | cons branch branches ih =>
    rw [List.map_cons, runAll] at hfailure ⊢
    obtain ⟨hfirst, hrest, hrows⟩ := Found.append_of_failure_eq_none hfailure
    obtain ⟨hfound, hasked⟩ := ask_of_failure_eq_none hfirst
    obtain ⟨hnodup, hmem⟩ := hbranches branch List.mem_cons_self hfound
    have hfoundDocs : ∀ e ∈ (run docs (makeBranch branch)).rows, e ∈ docs := fun e he =>
      ((hmem e).mp he).1
    have hseen' : ∀ e ∈ seen ++ (run docs (makeBranch branch)).rows, e ∈ docs := fun e he =>
      (List.mem_append.mp he).elim (hseen e) (hfoundDocs e)
    obtain ⟨hnodup', hmem'⟩ :=
      ih (fun branch hb => hbranches branch (List.mem_cons_of_mem _ hb)) hseen' hrest
    -- keys tell documents apart, so a key that has been seen is a document that has been seen
    have hseenKey : ∀ d ∈ docs, (!seen.any d.sameKey) = true ↔ d ∉ seen := by
      intro d hd
      rw [Bool.not_eq_true', List.any_eq_false]
      refine ⟨fun h hmem => h d hmem (by simp [Document.sameKey]), fun h e he hkey => ?_⟩
      exact h (hdocs.eq_of_sameKey hd (hseen e he) hkey ▸ he)
    have hmemFirst : ∀ d, d ∈ (ask asked ((run docs (makeBranch branch)).filter
        fun d => !seen.any d.sameKey)).rows ↔
        d ∈ docs ∧ d ∉ seen ∧ d.MeetsAll asked ∧ d.MeetsAll branch := by
      intro d
      rw [hasked, List.mem_filter, decide_eq_true_iff]
      show d ∈ (run docs (makeBranch branch)).rows.filter _ ∧ _ ↔ _
      rw [List.mem_filter, hmem]
      constructor
      · rintro ⟨⟨⟨hd, hbranch⟩, hunseen⟩, hask⟩
        exact ⟨hd, (hseenKey d hd).mp hunseen, hask, hbranch⟩
      · rintro ⟨hd, hunseen, hask, hbranch⟩
        exact ⟨⟨⟨hd, hbranch⟩, (hseenKey d hd).mpr hunseen⟩, hask⟩
    rw [hrows]
    refine ⟨?_, fun d => ?_⟩
    · refine List.nodup_append.mpr ⟨?_, hnodup', fun d hd e he heq => ?_⟩
      · rw [hasked]
        exact (hnodup.filter _).filter _
      · obtain ⟨hdocs', -, -, hbranch⟩ := (hmemFirst d).mp hd
        obtain ⟨-, hunseen, -, -⟩ := (hmem' e).mp he
        exact hunseen (List.mem_append_right _ ((hmem e).mpr (heq ▸ ⟨hdocs', hbranch⟩)))
    · rw [List.mem_append, hmemFirst, hmem', List.mem_append, not_or, hmem]
      -- a document that an earlier branch finds has been seen when a later one finds it
      by_cases hd : d ∈ docs <;> by_cases hbranch : d.MeetsAll branch <;> simp [hd, hbranch]

end Plan

/-! ### Demands that are resolved into clauses -/

namespace Demand

variable {d : Document}

theorem exists_passes_disjuncts (a : Demand) : (∃ b ∈ a.disjuncts, b.Passes d) ↔ a.Passes d := by
  rw [disjuncts]
  cases ha : a.check with
  | keyed k => simp
  | meets c =>
    have hc : a.Passes d ↔ c.IsTrue (d.withKeys a.given) := by rw [Passes, ha, Check.Passes]
    rw [hc, ← Condition.exists_disjuncts c]
    constructor
    · rintro ⟨b, hb, hpasses⟩
      obtain ⟨c', hc', rfl⟩ := List.mem_map.mp hb
      exact ⟨c', hc', hpasses⟩
    · rintro ⟨c', hc', htrue⟩
      exact ⟨_, List.mem_map_of_mem hc', htrue⟩

theorem forall_passes_conjuncts (a : Demand) : (∀ b ∈ a.conjuncts, b.Passes d) ↔ a.Passes d := by
  rw [conjuncts]
  cases ha : a.check with
  | keyed k => simp
  | meets c =>
    have hc : a.Passes d ↔ c.IsTrue (d.withKeys a.given) := by rw [Passes, ha, Check.Passes]
    rw [hc, ← Condition.forall_conjuncts c, List.forall_mem_map]
    exact Iff.rfl

theorem given_of_mem_disjuncts {a b : Demand} (h : b ∈ a.disjuncts) : b.given = a.given := by
  rw [disjuncts] at h
  split at h
  · obtain ⟨c, -, rfl⟩ := List.mem_map.mp h
    rfl
  · rw [List.mem_singleton.mp h]

theorem given_of_mem_conjuncts {a b : Demand} (h : b ∈ a.conjuncts) : b.given = a.given := by
  rw [conjuncts] at h
  split at h
  · obtain ⟨c, -, rfl⟩ := List.mem_map.mp h
    rfl
  · rw [List.mem_singleton.mp h]

/-- A demand that fixes a key field is a single test, which can be looked up. -/
theorem exists_test_of_fixed? {f : Demand} {field value : String}
    (h : f.check.fixed? = some (field, value)) : ∃ t column, f.check = .meets (.test t) ∧
      t.field = field ∧ t.keyUse? = some (column, .equal) := by
  obtain ⟨column, hcolumn⟩ : ∃ column, KeyColumn.ofField? field = some column := by
    have hkey : isKeyField field = true := (Check.passes_of_fixed? (d := ⟨"", "", .null⟩) h).1
    rcases isKeyField_iff.mp hkey with rfl | rfl
    · exact ⟨.docType, rfl⟩
    · exact ⟨.id, rfl⟩
  unfold Check.fixed? at h
  split at h
  case h_1 field' s hcheck =>
    split at h
    case isTrue =>
      cases h
      exact ⟨_, column, hcheck, rfl, by simp [Test.keyUse?, Test.field, hcolumn]⟩
    case isFalse => cases h
  case h_2 field' s hcheck =>
    split at h
    case isTrue =>
      cases h
      exact ⟨_, column, hcheck, rfl, by simp [Test.keyUse?, Test.field, hcolumn]⟩
    case isFalse => cases h
  case h_3 => cases h

theorem isDecided_of_fixed? {f : Demand} {field value : String} (hgiven : f.given = [])
    (h : f.check.fixed? = some (field, value)) : f.isDecided = false := by
  obtain ⟨t, column, hcheck, -, -⟩ := exists_test_of_fixed? h
  simp [isDecided, fields, hcheck, hgiven, Check.fields, Condition.fields]

theorem isUseful_of_fixed? {f : Demand} {field value : String} (hgiven : f.given = [])
    (h : f.check.fixed? = some (field, value)) : f.term.isUseful = true := by
  obtain ⟨t, column, hcheck, -, hkey⟩ := exists_test_of_fixed? h
  simp [term, hcheck, hgiven, Condition.terms, Test.term, Givens.has, hkey, Term.isUseful]

end Demand

namespace Plan

variable {docs : List Document} {demands : List Demand}

/-- The demands of a clause: what the clause joins by `AND`, and the others that the index
may be of use for. -/
theorem anchored_branch (h : Demand.Anchored demands) {place : Nat} {joined branch : Demand}
    (hplace : demands[place]? = some joined) (hbranch : branch ∈ joined.disjuncts) :
    Demand.Anchored (branch.conjuncts ++
      (without [place] demands).filter fun a => a.term.isUseful) := by
  intro a ha field value hlookup
  -- whatever fixes a key is either resolved, and then stays what it is, or useful
  obtain ⟨f, hf, hgiven, hfixed⟩ : ∃ f ∈ demands, f.given = [] ∧
      f.check.fixed? = some (field, value) := by
    rcases List.mem_append.mp ha with ha | ha
    · rw [Demand.given_of_mem_conjuncts ha, Demand.given_of_mem_disjuncts hbranch] at hlookup
      exact h joined (List.mem_of_getElem? hplace) field value hlookup
    · exact h a (mem_without (List.mem_filter.mp ha).1) field value hlookup
  refine ⟨f, ?_, hgiven, hfixed⟩
  rcases mem_cases [place] hf with hdecided | ⟨i, hi, hf⟩ | hother
  · exact nomatch (Demand.isDecided_of_fixed? hgiven hfixed).symm.trans (List.mem_filter.mp hdecided).2
  · rw [List.mem_singleton.mp hi, hplace, Option.some.injEq] at hf
    subst hf
    obtain ⟨t, -, hcheck, -, -⟩ := Demand.exists_test_of_fixed? hfixed
    have hself : branch = joined := by
      rw [Demand.disjuncts, hcheck] at hbranch
      simpa [Condition.disjuncts, ← hcheck] using hbranch
    refine List.mem_append_left _ ?_
    rw [hself, Demand.conjuncts, hcheck]
    simp [Condition.conjuncts, ← hcheck]
  · exact List.mem_append_right _
      (List.mem_filter.mpr ⟨hother, Demand.isUseful_of_fixed? hgiven hfixed⟩)

/-- Demands are met if one of the clauses of one of them is, and all others are. -/
theorem meetsAll_of_clause {place : Nat} {joined clause : Demand} {d : Document}
    (hplace : demands[place]? = some joined) (hclause : clause ∈ joined.disjuncts)
    (hdecided : d.MeetsAll (demands.filter Demand.isDecided))
    (hothers : d.MeetsAll (without [place] demands)) (hd : d.MeetsAll clause.conjuncts) :
    d.MeetsAll demands := by
  refine meetsAll_of_without hdecided (fun i hi a ha => ?_) hothers
  rw [List.mem_singleton.mp hi, hplace, Option.some.injEq] at ha
  rw [← ha, ← Demand.exists_passes_disjuncts]
  exact ⟨clause, hclause, (Demand.forall_passes_conjuncts clause).mp hd⟩

theorem finds_ofClauses (hdocs : KeyedRows docs) (h : Demand.Anchored demands)
    {makeBranch : List Demand → Plan}
    (hbranch : ∀ demands, Demand.Anchored demands → Finds docs demands (makeBranch demands))
    {place : Nat} {joined : Demand} (hplace : demands[place]? = some joined) :
    Finds docs demands (ofClauses makeBranch demands place joined) := by
  let others := without [place] demands
  let branches := joined.disjuncts.map fun branch =>
    branch.conjuncts ++ others.filter fun a => a.term.isUseful
  have hrun : (ofClauses makeBranch demands place joined).run docs =
      ifDecided (demands.filter Demand.isDecided)
        (runAll docs others [] (branches.map makeBranch)) := by
    rw [List.map_map]
    rfl
  have hbranches : ∀ branch ∈ branches, Finds docs branch (makeBranch branch) := by
    intro branch hmem
    obtain ⟨b, hb, rfl⟩ := List.mem_map.mp hmem
    exact hbranch _ (anchored_branch h hplace hb)
  -- a branch is one of the joined conditions together with the useful ones of the others
  refine finds_of_ifDecided h hrun fun hdecided hfailure => ?_
  obtain ⟨hnodup, hmem⟩ := runAll_of_failure_eq_none hdocs hbranches
    (fun e (he : e ∈ []) => nomatch he) hfailure
  refine ⟨hnodup, fun d => (hmem d).trans (and_congr_right fun _ => ?_)⟩
  constructor
  · rintro ⟨-, hothers, branch, hmem, hd⟩
    obtain ⟨b, hb, rfl⟩ := List.mem_map.mp hmem
    exact meetsAll_of_clause hplace hb (hdecided d) hothers (Document.meetsAll_append.mp hd).1
  · intro hd
    obtain ⟨b, hb, hpasses⟩ := (Demand.exists_passes_disjuncts joined).mpr
      (hd joined (List.mem_of_getElem? hplace))
    refine ⟨by simp, fun a ha => hd a (mem_without ha), _, List.mem_map_of_mem hb, ?_⟩
    refine Document.meetsAll_append.mpr ⟨(Demand.forall_passes_conjuncts b).mpr hpasses, ?_⟩
    exact fun a ha => hd a (mem_without (List.mem_filter.mp ha).1)

/-! ### Every access path -/

/-- **Every access path leads to the rows that meet all demands.** -/
theorem finds_ofPath (hdocs : KeyedRows docs) (h : Demand.Anchored demands)
    {makeBranch : List Demand → Plan}
    (hbranch : ∀ demands, Demand.Anchored demands → Finds docs demands (makeBranch demands))
    (reversed : Bool) (p : AccessPath) :
    Finds docs demands (ofPath makeBranch (Clause.ofDemands demands) demands reversed p) := by
  rw [ofPath]
  split
  case h_1 => exact finds_ofTable hdocs h
  case h_2 =>
    refine finds_ofLookups hdocs h (fun l hl => ?_) reversed
    obtain ⟨r, -, hr⟩ := List.mem_filterMap.mp hl
    exact Lookup.exists_demand hr
  case h_3 =>
    split
    case h_1 place joined hused =>
      obtain ⟨r, -, hr⟩ := Option.bind_eq_some_iff.mp hused
      obtain ⟨a, ha, hpair⟩ := Option.map_eq_some_iff.mp hr
      cases hpair
      exact finds_ofClauses hdocs h hbranch ha
    case h_2 => exact finds_ofTable hdocs h

theorem finds_makeInner (hdocs : KeyedRows docs) (onlyKeys : Bool) (depth : Nat) :
    ∀ demands, Demand.Anchored demands → Finds docs demands (makeInner onlyKeys depth demands) := by
  induction depth with
  | zero => exact fun demands h => finds_ofTable hdocs h
  | succ depth ih => exact fun demands h => finds_ofPath hdocs h ih false _

/-- **The plan for some demands finds the rows that meet them**, each of them once, unless
it fails. -/
theorem finds_make (hdocs : KeyedRows docs) (g : Goal) (h : Demand.Anchored demands) :
    Finds docs demands (make g demands).plan :=
  finds_ofPath hdocs h (finds_makeInner hdocs _ _) _ _

end Plan

end DocSearch
