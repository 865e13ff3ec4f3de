import DocSearch.Proofs.Store.Scan

/-!
# What does not fail

A statement fails on the data if a test fails that it comes upon.  Which tests these are
depends on the access path; but if the tests of a condition can be made of all documents of
the tables, then no path comes upon one that fails.  A value that the condition asks the
type or the identifier to have is tried even if no document has it, so it has to be one
for which nothing fails.

## Main definitions

* `Condition.tests` — the tests of a condition.
* `Seen` — what is looked at for a field.
* `Check.IsTotalOn`, `Demand.IsTotalOn` — what is asked can be asked of whatever is seen.

* `fixedBy` — the values that are tried.

## Main results

* `Plan.live_make` — the plan for demands that can be made does not fail.
* `Database.candidates_total`, `Database.eachInTurn_total` — neither does a statement.
-/

namespace DocSearch

open Steps

/-! ### Rows that are found -/

namespace Found

variable {α β : Type}

theorem ofRows_total {f : α → Except EvaluationError (Option β)} {as : List α}
    (h : ∀ a ∈ as, ∃ o, f a = .ok o) : (ofRows f none as).failure = none := by
  induction as with
  | nil => rfl
  | cons a as ih =>
    rw [List.forall_mem_cons] at h
    obtain ⟨⟨o, ho⟩, hrest⟩ := h
    cases o with
    | none =>
      rw [ofRows, ho]
      exact ih hrest
    | some b =>
      rw [ofRows_cons_of_ok ho]
      exact ih hrest

theorem filterM_total {p : α → Except EvaluationError Bool} {x : Found α} (hx : x.failure = none)
    (h : ∀ a ∈ x.rows, ∃ b, p a = .ok b) : (x.filterM p).failure = none := by
  rw [filterM, filterMapM, hx]
  refine ofRows_total fun a ha => ?_
  obtain ⟨b, hb⟩ := h a ha
  exact ⟨_, by rw [hb]; rfl⟩

theorem mapM_total {f : α → Except EvaluationError β} {x : Found α} (hx : x.failure = none)
    (h : ∀ a ∈ x.rows, ∃ b, f a = .ok b) : (x.mapM f).failure = none := by
  rw [mapM, filterMapM, hx]
  refine ofRows_total fun a ha => ?_
  obtain ⟨b, hb⟩ := h a ha
  exact ⟨_, by rw [hb]; rfl⟩

theorem toExcept_total {x : Found α} (h : x.failure = none) : x.toExcept = .ok x.rows := by
  rw [toExcept, h]

theorem append_total {x y : Found α} (hx : x.failure = none) (hy : y.failure = none) :
    (x.append y).failure = none := by
  rw [append, hx]
  exact hy

theorem concat_total {searches : List (Found α)} (h : ∀ x ∈ searches, x.failure = none) :
    (concat searches).failure = none := by
  induction searches with
  | nil => rfl
  | cons x searches ih =>
    rw [List.forall_mem_cons] at h
    exact append_total h.1 (ih h.2)

end Found

/-! ### Tests -/

namespace Condition

mutual

/-- The tests of a condition. -/
def tests : Condition → List Test
  | .test t => [t]
  | .never => []
  | .all parts => testsOfList parts
  | .any parts => testsOfList parts
  | .group c => tests c
  | .not c => tests c

/-- The tests of several conditions. -/
def testsOfList : List Condition → List Test
  | [] => []
  | c :: cs => tests c ++ testsOfList cs

end

/-- A property of all tests of a condition. -/
def AllTests (p : Test → Prop) (c : Condition) : Prop := ∀ t ∈ c.tests, p t

variable {p : Test → Prop}

mutual

theorem AllTests.conjuncts : ∀ {c : Condition}, c.AllTests p → ∀ x ∈ c.conjuncts, x.AllTests p
  | .test _, h => by simpa [Condition.conjuncts] using h
  | .never, h => by simpa [Condition.conjuncts] using h
  | .not _, h => by simpa [Condition.conjuncts] using h
  | .group c, h => AllTests.conjuncts (c := c) h
  | .any [], h => by simpa [Condition.conjuncts] using h
  | .any [c], h => by
    rw [Condition.conjuncts]
    exact AllTests.conjuncts fun t ht => h t (List.mem_append_left _ ht)
  | .any (_ :: _ :: _), h => by simpa [Condition.conjuncts] using h
  | .all cs, h => allTests_conjunctsOfList cs h

theorem allTests_conjunctsOfList : ∀ (cs : List Condition), (∀ t ∈ testsOfList cs, p t) →
    ∀ x ∈ conjunctsOfList cs, x.AllTests p
  | [], _ => fun _ hx => nomatch hx
  | c :: cs, h => by
    rw [testsOfList, List.forall_mem_append] at h
    rw [conjunctsOfList, List.forall_mem_append]
    exact ⟨AllTests.conjuncts h.1, allTests_conjunctsOfList cs h.2⟩

end

mutual

theorem AllTests.disjuncts : ∀ {c : Condition}, c.AllTests p → ∀ x ∈ c.disjuncts, x.AllTests p
  | .test _, h => by simpa [Condition.disjuncts] using h
  | .never, h => by simpa [Condition.disjuncts] using h
  | .not _, h => by simpa [Condition.disjuncts] using h
  | .group c, h => AllTests.disjuncts (c := c) h
  | .all [], h => by simpa [Condition.disjuncts] using h
  | .all [c], h => by
    rw [Condition.disjuncts]
    exact AllTests.disjuncts fun t ht => h t (List.mem_append_left _ ht)
  | .all (_ :: _ :: _), h => by simpa [Condition.disjuncts] using h
  | .any cs, h => allTests_disjunctsOfList cs h

theorem allTests_disjunctsOfList : ∀ (cs : List Condition), (∀ t ∈ testsOfList cs, p t) →
    ∀ x ∈ disjunctsOfList cs, x.AllTests p
  | [], _ => fun _ hx => nomatch hx
  | c :: cs, h => by
    rw [testsOfList, List.forall_mem_append] at h
    rw [disjunctsOfList, List.forall_mem_append]
    exact ⟨AllTests.disjuncts h.1, allTests_disjunctsOfList cs h.2⟩

end

variable {d : Document}

mutual

/-- A condition is decided if none of its tests fails. -/
theorem met_total : ∀ (c : Condition) (unknown : Bool),
    c.AllTests (fun t => ∃ truth, d.holds t = .ok truth) → ∃ b, c.met d.holds unknown = .ok b
  | .test t, unknown, h => by
    obtain ⟨truth, ht⟩ := h t List.mem_cons_self
    exact ⟨truth.getD unknown, by rw [met, ht]; rfl⟩
  | .never, _, _ => ⟨false, rfl⟩
  | .all parts, unknown, h => allMet_total parts unknown h
  | .any parts, unknown, h => anyMet_total parts unknown h
  | .group c, unknown, h => met_total c unknown h
  | .not c, unknown, h => by
    obtain ⟨b, hb⟩ := met_total c (!unknown) h
    exact ⟨!b, by rw [met, hb]; rfl⟩

theorem allMet_total : ∀ (cs : List Condition) (unknown : Bool),
    (∀ t ∈ testsOfList cs, ∃ truth, d.holds t = .ok truth) →
      ∃ b, allMet d.holds unknown cs = .ok b
  | [], _, _ => ⟨true, rfl⟩
  | c :: cs, unknown, h => by
    rw [testsOfList, List.forall_mem_append] at h
    obtain ⟨first, hfirst⟩ := met_total c unknown h.1
    obtain ⟨rest, hrest⟩ := allMet_total cs unknown h.2
    rw [allMet, hfirst]
    cases first with
    | true => exact ⟨rest, hrest⟩
    | false => exact ⟨false, rfl⟩

theorem anyMet_total : ∀ (cs : List Condition) (unknown : Bool),
    (∀ t ∈ testsOfList cs, ∃ truth, d.holds t = .ok truth) →
      ∃ b, anyMet d.holds unknown cs = .ok b
  | [], _, _ => ⟨false, rfl⟩
  | c :: cs, unknown, h => by
    rw [testsOfList, List.forall_mem_append] at h
    obtain ⟨first, hfirst⟩ := met_total c unknown h.1
    obtain ⟨rest, hrest⟩ := anyMet_total cs unknown h.2
    rw [anyMet, hfirst]
    cases first with
    | true => exact ⟨true, rfl⟩
    | false => exact ⟨rest, hrest⟩

end

end Condition

/-! ### Checks -/

/-- What is looked at for a field: the documents of a table, and documents whose key has a
value there that is tried. -/
def Seen (docs : List Document) (tried : String → String → Prop) (field : String)
    (d : Document) : Prop :=
  d ∈ docs ∨ ∃ value, d.column? field = some value ∧ tried field value

/-- A test can be made of whatever is looked at. -/
def Test.IsTotalOn (docs : List Document) (tried : String → String → Prop) (t : Test) : Prop :=
  ∀ d, Seen docs tried t.field d → ∃ truth, d.holds t = .ok truth

/-- Whatever is looked at has a bucket key, or none. -/
def BucketKey.IsTotalOn (docs : List Document) (tried : String → String → Prop)
    (k : BucketKey) : Prop :=
  ∀ d, Seen docs tried k.field d → ∃ cell, d.bucketKey k = .ok cell

/-- The value that a test asks its field to have. -/
def Test.fixed? : Test → Option String
  | equals _ (.text s) => some s
  | among _ [.text s] => some s
  | _ => none

/-- A check can be made of whatever is looked at, and the values that it asks for are
tried. -/
def Check.IsTotalOn (docs : List Document) (tried : String → String → Prop) : Check → Prop
  | meets c => c.AllTests fun t =>
      t.IsTotalOn docs tried ∧ ∀ value, t.fixed? = some value → tried t.field value
  | keyed k => k.IsTotalOn docs tried

variable {docs : List Document} {tried : String → String → Prop} {d : Document}

mutual

/-- The fields of a condition are those of its tests. -/
theorem Condition.fields_eq : ∀ c : Condition, c.fields = c.tests.map Test.field
  | .test _ => rfl
  | .never => rfl
  | .all parts => Condition.fieldsOfList_eq parts
  | .any parts => Condition.fieldsOfList_eq parts
  | .group c => Condition.fields_eq c
  | .not c => Condition.fields_eq c

theorem Condition.fieldsOfList_eq : ∀ cs : List Condition,
    fieldsOfList cs = (testsOfList cs).map Test.field
  | [] => rfl
  | c :: cs => by
    rw [fieldsOfList, testsOfList, List.map_append, Condition.fields_eq c,
      Condition.fieldsOfList_eq cs]

end

theorem Check.IsTotalOn.holds {check : Check} (h : check.IsTotalOn docs tried)
    (hd : ∀ field ∈ check.fields, ∃ e, Seen docs tried field e ∧ d.Agree e field) :
    ∃ b, check.holds d = .ok b := by
  cases check with
  | meets c =>
    refine Condition.met_total c false fun t ht => ?_
    have hfield : t.field ∈ c.fields := by
      rw [Condition.fields_eq]
      exact List.mem_map_of_mem ht
    obtain ⟨e, he, hagree⟩ := hd t.field hfield
    obtain ⟨truth, htruth⟩ := (h t ht).1 e he
    exact ⟨truth, (Document.holds_congr hagree).trans htruth⟩
  | keyed k =>
    obtain ⟨e, he, hagree⟩ := hd k.field List.mem_cons_self
    obtain ⟨cell, hcell⟩ := h e he
    have hsame : d.bucketKey k = e.bucketKey k := by
      simp only [Document.bucketKey, Document.fieldInstant, hagree.1]
    exact ⟨cell != .null, by rw [Check.holds, hsame, hcell]; rfl⟩

/-- The value that a check fixes a key field to is tried. -/
theorem Check.IsTotalOn.tries {check : Check} (h : check.IsTotalOn docs tried)
    {field value : String} (hfixed : check.fixed? = some (field, value)) : tried field value := by
  rw [Check.fixed?.eq_def] at hfixed
  split at hfixed
  case h_1 =>
    split at hfixed <;> cases hfixed
    exact (h _ List.mem_cons_self).2 _ rfl
  case h_2 =>
    split at hfixed <;> cases hfixed
    exact (h _ List.mem_cons_self).2 _ rfl
  case h_3 => cases hfixed

/-- A field that is not replaced stays what it is. -/
theorem Document.agree_withKeys {keys : KeyValues} {field : String}
    (h : keys.lookup field = none) : (d.withKeys keys).Agree d field := by
  have hcolumn : (d.withKeys keys).column? field = d.column? field := by
    by_cases hid : field = "_id"
    · subst hid
      simp [column?, withKeys, h]
    · by_cases htype : field = "_type"
      · subst htype
        simp [column?, withKeys, h]
      · simp [column?, hid, htype]
  rw [Agree, fieldValue, fieldText, fieldValue, fieldText, hcolumn]
  exact ⟨rfl, rfl⟩

/-! ### Demands -/

namespace Demand

variable {demands : List Demand} {a : Demand}

/-- A demand can be made of whatever is looked at, and the keys that it is given are
tried. -/
structure IsTotalOn (docs : List Document) (tried : String → String → Prop) (a : Demand) :
    Prop where
  check : a.check.IsTotalOn docs tried
  given : ∀ field value, a.given.lookup field = some value →
    isKeyField field = true ∧ tried field value

theorem IsTotalOn.holds (h : a.IsTotalOn docs tried) (hd : d ∈ docs ∨ a.isDecided = true) :
    ∃ b, a.holds d = .ok b := by
  refine h.check.holds fun field hfield => ?_
  cases hlookup : a.given.lookup field with
  | some value =>
    obtain ⟨hkey, htried⟩ := h.given field value hlookup
    exact ⟨_, .inr ⟨value, Document.column?_withKeys hkey hlookup, htried⟩, rfl, rfl⟩
  | none =>
    -- the field is read of the row itself, which is then one of the table
    have hread : field ∈ a.fields := List.mem_filter.mpr ⟨hfield, by rw [hlookup]; rfl⟩
    have hpending : a.isDecided ≠ true := fun hdecided => by
      rw [List.isEmpty_iff.mp hdecided] at hread
      cases hread
    exact ⟨d, .inl (hd.resolve_right hpending), Document.agree_withKeys hlookup⟩

theorem IsTotalOn.conjuncts (h : a.IsTotalOn docs tried) :
    ∀ b ∈ a.conjuncts, b.IsTotalOn docs tried := by
  intro b hb
  refine ⟨?_, given_of_mem_conjuncts hb ▸ h.given⟩
  have hcheck := h.check
  rw [Demand.conjuncts] at hb
  split at hb
  case h_1 c hmeets =>
    obtain ⟨x, hx, rfl⟩ := List.mem_map.mp hb
    rw [hmeets] at hcheck
    exact Condition.AllTests.conjuncts hcheck x hx
  case h_2 =>
    rw [List.mem_singleton.mp hb]
    exact hcheck

theorem IsTotalOn.disjuncts (h : a.IsTotalOn docs tried) :
    ∀ b ∈ a.disjuncts, b.IsTotalOn docs tried := by
  intro b hb
  refine ⟨?_, given_of_mem_disjuncts hb ▸ h.given⟩
  have hcheck := h.check
  rw [Demand.disjuncts] at hb
  split at hb
  case h_1 c hmeets =>
    obtain ⟨x, hx, rfl⟩ := List.mem_map.mp hb
    rw [hmeets] at hcheck
    exact Condition.AllTests.disjuncts hcheck x hx
  case h_2 =>
    rw [List.mem_singleton.mp hb]
    exact hcheck

theorem allHold_total (h : ∀ a ∈ demands, ∃ b, a.holds d = .ok b) :
    ∃ b, allHold d demands = .ok b := by
  induction demands with
  | nil => exact ⟨true, rfl⟩
  | cons a as ih =>
    rw [List.forall_mem_cons] at h
    obtain ⟨⟨first, hfirst⟩, hrest⟩ := h
    obtain ⟨rest, hrest⟩ := ih hrest
    rw [allHold, hfirst]
    cases first with
    | true => exact ⟨rest, hrest⟩
    | false => exact ⟨false, rfl⟩

/-- What is decided before any row looks at keys that are tried. -/
theorem decide_total (h : ∀ a ∈ demands, a.IsTotalOn docs tried) :
    ∃ b, decide (demands.filter isDecided) = .ok b :=
  allHold_total fun a ha => (h a (List.mem_filter.mp ha).1).holds (.inr (List.mem_filter.mp ha).2)

theorem check_mem_of_mem_ofChecks {checks : List Check} (ha : a ∈ ofChecks checks) :
    a.check ∈ checks := by
  obtain ⟨fixing, h⟩ := fixing_ofChecks checks
  have hchecks : (ofChecks checks).map Demand.check = checks := h.checks
  rw [← hchecks]
  exact List.mem_map_of_mem ha

/-- The demands of checks that can be made can be made. -/
theorem isTotalOn_ofChecks {checks : List Check} (h : ∀ check ∈ checks, check.IsTotalOn docs tried) :
    ∀ a ∈ ofChecks checks, a.IsTotalOn docs tried := by
  intro a ha
  refine ⟨h _ (check_mem_of_mem_ofChecks ha), fun field value hlookup => ?_⟩
  obtain ⟨f, hf, -, hfixed⟩ := anchored_ofChecks checks a ha field value hlookup
  refine ⟨(Check.passes_of_fixed? (d := ⟨"", "", .null⟩) hfixed).1, ?_⟩
  have hf : f.check.IsTotalOn docs tried := h _ (check_mem_of_mem_ofChecks hf)
  exact hf.tries hfixed

end Demand

/-! ### Plans -/

namespace Plan

variable {demands : List Demand}

/-- Rows of a table behind which nothing fails. -/
def IsLive (docs : List Document) (x : Found Document) : Prop :=
  x.failure = none ∧ ∀ d ∈ x.rows, d ∈ docs

theorem IsLive.ask {x : Found Document} (hx : IsLive docs x)
    (htotal : ∀ a ∈ demands, a.IsTotalOn docs tried) : IsLive docs (ask demands x) := by
  have hfailure : (Plan.ask demands x).failure = none := by
    refine Found.filterM_total hx.1 fun d hd => Demand.allHold_total fun a ha => ?_
    exact (htotal a ha).holds (.inl (hx.2 d hd))
  refine ⟨hfailure, fun d hd => ?_⟩
  rw [(ask_of_failure_eq_none hfailure).2] at hd
  exact hx.2 d (List.mem_filter.mp hd).1

theorem IsLive.ifDecided {x : Found Document} (hx : IsLive docs x)
    (htotal : ∀ a ∈ demands, a.IsTotalOn docs tried) :
    IsLive docs (ifDecided (demands.filter Demand.isDecided) x) := by
  obtain ⟨b, hb⟩ := Demand.decide_total htotal
  rw [Plan.ifDecided, hb]
  cases b with
  | true => exact hx
  | false => exact ⟨rfl, fun d hd => absurd hd List.not_mem_nil⟩

theorem live_ofTable (htotal : ∀ a ∈ demands, a.IsTotalOn docs tried) :
    IsLive docs ((ofTable demands).run docs) :=
  IsLive.ifDecided (IsLive.ask ⟨rfl, fun _ hd => hd⟩ fun a ha => htotal a (mem_without ha)) htotal

theorem live_ofLookups (htotal : ∀ a ∈ demands, a.IsTotalOn docs tried) (lookups : List Lookup)
    (reversed : Bool) : IsLive docs ((ofLookups demands lookups reversed).run docs) := by
  rw [ofLookups_eq]
  have hasked : ∀ a ∈ keysFirst (without (lookups.map (·.place)) demands),
      a.IsTotalOn docs tried := by
    intro a ha
    rcases List.mem_append.mp ha with ha | ha
    · exact htotal a (mem_without (List.mem_filter.mp ha).1)
    · exact htotal a (mem_without (List.mem_filter.mp ha).1)
  exact IsLive.ifDecided (IsLive.ask ⟨rfl, fun d hd => (mem_lookUp.mp hd).1⟩ hasked) htotal

theorem live_runAll {asked : List Demand} (hasked : ∀ a ∈ asked, a.IsTotalOn docs tried)
    {branches : List Plan} (hbranches : ∀ branch ∈ branches, IsLive docs (branch.run docs))
    (seen : List Document) : IsLive docs (runAll docs asked seen branches) := by
  induction branches generalizing seen with
  | nil => exact ⟨rfl, fun d hd => nomatch hd⟩
  | cons branch branches ih =>
    rw [List.forall_mem_cons] at hbranches
    obtain ⟨hfailure, hrows⟩ := hbranches.1
    have hfirst : IsLive docs (ask asked ((run docs branch).filter fun d => !seen.any d.sameKey)) :=
      IsLive.ask ⟨hfailure, fun d hd => hrows d (List.mem_filter.mp hd).1⟩ hasked
    have hrest := ih hbranches.2 (seen ++ (run docs branch).rows)
    rw [runAll]
    have happend := Found.append_total hfirst.1 hrest.1
    refine ⟨happend, fun d hd => ?_⟩
    rw [(Found.append_of_failure_eq_none happend).2.2] at hd
    exact (List.mem_append.mp hd).elim (hfirst.2 d) (hrest.2 d)

/-- What a branch demands is part of what is demanded. -/
theorem live_ofClauses (htotal : ∀ a ∈ demands, a.IsTotalOn docs tried)
    {makeBranch : List Demand → Plan}
    (hbranch : ∀ demands, (∀ a ∈ demands, a.IsTotalOn docs tried) →
      IsLive docs ((makeBranch demands).run docs))
    {place : Nat} {joined : Demand} (hplace : demands[place]? = some joined) :
    IsLive docs ((ofClauses makeBranch demands place joined).run docs) := by
  refine IsLive.ifDecided (live_runAll (fun a ha => htotal a (mem_without ha)) ?_ []) htotal
  intro branch hmem
  obtain ⟨b, hb, rfl⟩ := List.mem_map.mp hmem
  refine hbranch _ (List.forall_mem_append.mpr ⟨?_, fun a ha => ?_⟩)
  · exact ((htotal joined (List.mem_of_getElem? hplace)).disjuncts b hb).conjuncts
  · exact htotal a (mem_without (List.mem_filter.mp ha).1)

theorem live_ofPath (htotal : ∀ a ∈ demands, a.IsTotalOn docs tried)
    {makeBranch : List Demand → Plan}
    (hbranch : ∀ demands, (∀ a ∈ demands, a.IsTotalOn docs tried) →
      IsLive docs ((makeBranch demands).run docs)) (reversed : Bool) (p : AccessPath) :
    IsLive docs ((ofPath makeBranch (Clause.ofDemands demands) demands reversed p).run docs) := by
  rw [ofPath]
  split
  case h_1 => exact live_ofTable htotal
  case h_2 => exact live_ofLookups htotal _ reversed
  case h_3 =>
    split
    case h_1 place joined hused =>
      obtain ⟨r, -, hr⟩ := Option.bind_eq_some_iff.mp hused
      obtain ⟨a, ha, hpair⟩ := Option.map_eq_some_iff.mp hr
      cases hpair
      exact live_ofClauses htotal hbranch ha
    case h_2 => exact live_ofTable htotal

theorem live_makeInner (onlyKeys : Bool) (depth : Nat) : ∀ demands,
    (∀ a ∈ demands, a.IsTotalOn docs tried) →
      IsLive docs ((makeInner onlyKeys depth demands).run docs) := by
  induction depth with
  | zero => exact fun demands htotal => live_ofTable htotal
  | succ depth ih => exact fun demands htotal => live_ofPath htotal ih false _

/-- **The plan for demands that can be made does not fail.** -/
theorem live_make (g : Goal) (htotal : ∀ a ∈ demands, a.IsTotalOn docs tried) :
    IsLive docs ((make g demands).plan.run docs) :=
  live_ofPath htotal (live_makeInner _ _) _ _

end Plan

/-! ### Sources -/

namespace Database

variable {db : Database} {checks : List Check}

/-- The table of a target is there, and checks can be made of its documents. -/
def CanCheck (db : Database) (tried : String → String → Prop) (checks : List Check)
    (t : Target) : Prop :=
  ∃ docs, db.indexTable? t.table = some docs ∧ ∀ check ∈ checks, check.IsTotalOn docs tried

/-- A plan for the table of a target does not fail. -/
theorem ofTarget_total {t : Target} {docs : List Document} (hdocs : db.indexTable? t.table = some docs)
    {plan : Plan} (hplan : Plan.IsLive docs (plan.run docs)) :
    (Found.ofExcept do return ofTarget t (plan.run (← db.targetRows t)) : Found Candidate).failure =
      none := by
  have hrows : db.targetRows t = .ok docs := by rw [targetRows, hdocs]
  rw [hrows]
  exact hplan.1

theorem planned_total {g : Goal} {t : Target} (h : db.CanCheck tried checks t) :
    (db.planned g checks t).failure = none := by
  obtain ⟨docs, hdocs, htotal⟩ := h
  exact ofTarget_total hdocs (Plan.live_make g (Demand.isTotalOn_ofChecks htotal))

theorem concat_inTarget_total {demands : List Demand} {targets : List Target}
    (ht : ∀ t ∈ targets, ∃ docs, db.indexTable? t.table = some docs ∧
      ∀ a ∈ demands, a.IsTotalOn docs tried) :
    (Found.concat (targets.map (db.inTarget demands))).failure = none := by
  refine Found.concat_total fun x hx => ?_
  obtain ⟨t, hmem, rfl⟩ := List.mem_map.mp hx
  obtain ⟨docs, hdocs, htotal⟩ := ht t hmem
  exact ofTarget_total hdocs (Plan.live_make {} htotal)

/-- **Looking through the tables one after the other does not fail.** -/
theorem eachInTurn_total {targets : List Target} (ht : ∀ t ∈ targets, db.CanCheck tried checks t) :
    (db.eachInTurn checks targets).failure = none := by
  have htables : ∀ t ∈ targets, ∃ docs, db.indexTable? t.table = some docs ∧
      ∀ a ∈ Demand.ofChecks checks, a.IsTotalOn docs tried := by
    intro t hmem
    obtain ⟨docs, hdocs, htotal⟩ := ht t hmem
    exact ⟨docs, hdocs, Demand.isTotalOn_ofChecks htotal⟩
  exact concat_inTarget_total htables

/-- Looking through the tables all together does not fail, if what is handed down is not
refused. -/
theorem allTogether_total (hdb : db.IsKeyed) {targets : List Target} (hne : targets ≠ [])
    (ht : ∀ t ∈ targets, db.CanCheck tried checks t) (hrefused : refusedBelow checks = false) :
    (db.allTogether checks targets).failure = none := by
  obtain ⟨t, hmem⟩ := List.exists_mem_of_ne_nil targets hne
  obtain ⟨docs, -, htotal⟩ := ht t hmem
  obtain ⟨b, hb⟩ := Demand.decide_total (Demand.isTotalOn_ofChecks htotal)
  rw [allTogether_eq, hrefused, hb]
  cases b with
  | false => rfl
  | true =>
    have hpending : ∀ {docs : List Document}, (∀ check ∈ checks, check.IsTotalOn docs tried) →
        ∀ a ∈ pendingDemands checks, a.IsTotalOn docs tried := fun htotal a ha =>
      Demand.isTotalOn_ofChecks htotal a (List.mem_filter.mp ha).1
    have htables : ∀ t ∈ targets, ∃ docs, db.indexTable? t.table = some docs ∧
        ∀ a ∈ settledDemands checks, a.IsTotalOn docs tried := by
      intro t hmem
      obtain ⟨docs, hdocs, htotal⟩ := ht t hmem
      refine ⟨docs, hdocs, fun a ha => ?_⟩
      obtain ⟨b, hb, rfl⟩ := List.mem_map.mp ha
      have hb := hpending htotal b (List.mem_reverse.mp hb)
      exact ⟨hb.check, hb.given⟩
    have hconcat := concat_inTarget_total htables
    refine Found.filterM_total hconcat fun c hc => Demand.allHold_total fun a ha => ?_
    -- what is found lies in the table of a target
    have hfound := (concat_inTarget_perm hdb (anchored_settledDemands checks) hconcat).mem_iff.mp
      (List.mem_map_of_mem hc)
    obtain ⟨u, hu, hdocument⟩ := List.mem_flatMap.mp hfound
    obtain ⟨docs, hdocs, htotal⟩ := ht u hu
    rw [hdocs] at hdocument
    exact (hpending htotal a ha).holds (.inl (List.mem_filter.mp hdocument).1)

/-- The values that types or a condition ask a field to have. -/
def fixedBy (types : List String) (filter : Option Condition) (field value : String) : Prop :=
  (field = "_type" ∧ types = [value]) ∨
    ∃ c ∈ filter, ∃ t ∈ c.tests, t.field = field ∧ t.fixed? = some value

/-- The type of a document can always be asked for. -/
theorem isTotalOn_ofTypes {docs : List Document} (types : List String) (filter : Option Condition) :
    (Check.meets (.test (.among "_type" (types.map .text)))).IsTotalOn docs (fixedBy types filter) := by
  intro t ht
  rw [List.mem_singleton.mp ht]
  refine ⟨fun d _ => ⟨(Cell.text d.docType).among (types.map .text), rfl⟩, fun value hvalue => ?_⟩
  match types, hvalue with
  | [type], hvalue =>
    cases hvalue
    exact .inl ⟨rfl, rfl⟩

theorem sourceChecks_isTotalOn {docs : List Document} {types : List String}
    {filter : Option Condition}
    (h : ∀ c ∈ filter, c.AllTests (Test.IsTotalOn docs (fixedBy types filter))) :
    ∀ check ∈ sourceChecks types filter, check.IsTotalOn docs (fixedBy types filter) := by
  intro check hcheck
  rcases List.mem_append.mp hcheck with hcheck | hcheck
  · split at hcheck
    · cases hcheck
    · rw [List.mem_singleton.mp hcheck]
      exact isTotalOn_ofTypes types filter
  · obtain ⟨x, hx, rfl⟩ := List.mem_map.mp hcheck
    cases filter with
    | none => cases hx
    | some c =>
      refine Condition.AllTests.conjuncts (c := c) (fun t ht => ⟨h c rfl t ht, ?_⟩) x hx
      exact fun value hvalue => .inr ⟨c, rfl, t, ht, rfl, hvalue⟩

/-- **What a statement reads of documents does not fail**, if its checks can be made of the
documents of the tables and what is handed down to several of them is not refused. -/
theorem candidates_total (hdb : db.IsKeyed) {goal : Goal} {fields : List String}
    {extra : List Check} {targets : List Target} {types : List String} {filter : Option Condition}
    (ht : ∀ t ∈ targets, db.CanCheck tried (sourceChecks types filter ++ extra) t)
    (hrefused : 1 < targets.length → refusedBelow (sourceChecks types filter ++ extra) = false) :
    (db.candidates goal fields extra (.documents targets types filter)).failure = none := by
  match targets, ht, hrefused with
  | [], _, _ => rfl
  | [t], ht, _ => exact planned_total (ht t List.mem_cons_self)
  | t :: t' :: targets, ht, hrefused =>
    exact allTogether_total hdb (List.cons_ne_nil _ _) ht
      (hrefused (Nat.succ_lt_succ (Nat.succ_pos _)))

end Database

end DocSearch
