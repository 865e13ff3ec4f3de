import DocSearch.Proofs.Sql.Connectives
import DocSearch.Proofs.Steps
import DocSearch.Store.Demand

/-!
# Which documents are selected

A test that fails has no truth value, and whether a statement comes upon it depends on
the order in which it looks at things.  So what is selected is said without regard to
failures: a test that fails counts as unknown.  Whenever a condition is decided, it is
decided in this way, whatever was not looked at.

What is asked of a row may be asked as if the row had other keys.  The checks that fix
the keys are among those that are asked, so for the rows that meet all of them nothing
was replaced.

## Main definitions

* `Document.truth` — the truth of a test, unknown if it fails.
* `Check.Passes`, `Demand.Passes` — a row passes a check, meets a demand.
* `Demand.Anchored` — keys are replaced by those that other demands fix.

## Main results

* `Check.passes_iff_of_holds` — what is decided is decided without regard to failures.
* `Demand.Anchored.withKeys` — the keys of rows that meet all demands are not replaced.
* `Demand.forall_ofChecks` — the demands of checks are met by the rows that pass them.
-/

namespace DocSearch

open Steps

/-! ### Truth without failures -/

/-- The truth of a test; one that fails is unknown. -/
def Document.truth (d : Document) (t : Test) : Truth :=
  match d.holds t with
  | .ok b => b
  | .error _ => none

theorem Document.truth_of_holds {d : Document} {t : Test} {b : Truth} (h : d.holds t = .ok b) :
    d.truth t = b := by
  rw [truth, h]

namespace Condition

variable {d : Document}

mutual

/-- **What is decided is decided without regard to failures.** -/
theorem getD_truth_of_met : ∀ (c : Condition) {unknown b : Bool},
    c.met d.holds unknown = .ok b → (c.truth d.truth).getD unknown = b
  | .test t, unknown, b, h => by
    obtain ⟨truth, htruth, hb⟩ := map_eq_ok.mp h
    rw [← hb]
    exact congrArg (·.getD unknown) (Document.truth_of_holds htruth)
  | .never, unknown, b, h => by
    cases h
    rfl
  | .all parts, unknown, b, h => getD_all_of_allMet parts h
  | .any parts, unknown, b, h => getD_any_of_anyMet parts h
  | .group c, unknown, b, h => getD_truth_of_met c h
  | .not c, unknown, b, h => by
    obtain ⟨b', hb', hb⟩ := map_eq_ok.mp h
    show (Truth.not (c.truth d.truth)).getD unknown = b
    rw [Truth.getD_not, getD_truth_of_met c hb', hb]

theorem getD_all_of_allMet : ∀ (cs : List Condition) {unknown b : Bool},
    allMet d.holds unknown cs = .ok b → ((Condition.all cs).truth d.truth).getD unknown = b
  | [], unknown, b, h => by
    cases h
    rfl
  | c :: cs, unknown, b, h => by
    obtain ⟨first, hfirst, h⟩ := bind_eq_ok.mp h
    have hc : (c.truth d.truth).getD unknown = first := getD_truth_of_met c hfirst
    show (Truth.and (c.truth d.truth) ((Condition.all cs).truth d.truth)).getD unknown = b
    rw [Truth.getD_and, hc]
    cases first with
    | true => rw [getD_all_of_allMet cs h, Bool.true_and]
    | false =>
      cases h
      rfl

theorem getD_any_of_anyMet : ∀ (cs : List Condition) {unknown b : Bool},
    anyMet d.holds unknown cs = .ok b → ((Condition.any cs).truth d.truth).getD unknown = b
  | [], unknown, b, h => by
    cases h
    rfl
  | c :: cs, unknown, b, h => by
    obtain ⟨first, hfirst, h⟩ := bind_eq_ok.mp h
    have hc : (c.truth d.truth).getD unknown = first := getD_truth_of_met c hfirst
    show (Truth.or (c.truth d.truth) ((Condition.any cs).truth d.truth)).getD unknown = b
    rw [Truth.getD_or, hc]
    cases first with
    | true =>
      cases h
      rfl
    | false => rw [getD_any_of_anyMet cs h, Bool.false_or]

end

/-- A condition is true of a document; a test that fails is unknown. -/
def IsTrue (d : Document) (c : Condition) : Prop := c.truth d.truth = some true

instance (d : Document) (c : Condition) : Decidable (c.IsTrue d) :=
  inferInstanceAs (Decidable (_ = _))

theorem isTrue_iff_of_met {c : Condition} {b : Bool} (h : c.met d.holds false = .ok b) :
    c.IsTrue d ↔ b = true := by
  rw [← getD_truth_of_met c h, IsTrue]
  rcases c.truth d.truth with _ | _ | _ <;> simp

@[simp] theorem isTrue_test (t : Test) : (Condition.test t).IsTrue d ↔ d.truth t = some true :=
  Iff.rfl

@[simp] theorem isTrue_group (c : Condition) : (Condition.group c).IsTrue d ↔ c.IsTrue d := Iff.rfl

@[simp] theorem isTrue_all {cs : List Condition} :
    (Condition.all cs).IsTrue d ↔ ∀ c ∈ cs, c.IsTrue d := by
  induction cs with
  | nil => exact iff_of_true rfl (by simp)
  | cons c cs ih =>
    rw [List.forall_mem_cons, ← ih]
    show Truth.and (c.truth d.truth) ((Condition.all cs).truth d.truth) = some true ↔
      c.truth d.truth = some true ∧ (Condition.all cs).truth d.truth = some true
    rcases c.truth d.truth with _ | _ | _ <;>
      rcases (Condition.all cs).truth d.truth with _ | _ | _ <;> simp [Truth.and]

@[simp] theorem isTrue_any {cs : List Condition} :
    (Condition.any cs).IsTrue d ↔ ∃ c ∈ cs, c.IsTrue d := by
  induction cs with
  | nil => exact iff_of_false (fun h => nomatch h) (by simp)
  | cons c cs ih =>
    simp only [List.mem_cons, or_and_right, exists_or, exists_eq_left, ← ih]
    show Truth.or (c.truth d.truth) ((Condition.any cs).truth d.truth) = some true ↔
      c.truth d.truth = some true ∨ (Condition.any cs).truth d.truth = some true
    rcases c.truth d.truth with _ | _ | _ <;>
      rcases (Condition.any cs).truth d.truth with _ | _ | _ <;> simp [Truth.or]

mutual

/-- A condition is true if all that it joins by `AND` is. -/
theorem forall_conjuncts : ∀ c : Condition, (∀ x ∈ c.conjuncts, x.IsTrue d) ↔ c.IsTrue d
  | .test _ => by simp [conjuncts]
  | .never => by simp [conjuncts]
  | .not _ => by simp [conjuncts]
  | .group c => by rw [conjuncts, forall_conjuncts c, isTrue_group]
  | .any [] => by simp [conjuncts]
  | .any [c] => by simp [conjuncts, forall_conjuncts c]
  | .any (_ :: _ :: _) => by simp [conjuncts]
  | .all cs => by rw [conjuncts, forall_conjunctsOfList cs, isTrue_all]

theorem forall_conjunctsOfList : ∀ cs : List Condition,
    (∀ x ∈ conjunctsOfList cs, x.IsTrue d) ↔ ∀ c ∈ cs, c.IsTrue d
  | [] => by simp [conjunctsOfList]
  | c :: cs => by
    rw [conjunctsOfList, List.forall_mem_append, forall_conjuncts c, forall_conjunctsOfList cs,
      List.forall_mem_cons]

end

mutual

/-- A condition is true if something that it joins by `OR` is. -/
theorem exists_disjuncts : ∀ c : Condition, (∃ x ∈ c.disjuncts, x.IsTrue d) ↔ c.IsTrue d
  | .test _ => by simp [disjuncts]
  | .never => by simp [disjuncts]
  | .not _ => by simp [disjuncts]
  | .group c => by rw [disjuncts, exists_disjuncts c, isTrue_group]
  | .all [] => by simp [disjuncts]
  | .all [c] => by simp [disjuncts, exists_disjuncts c]
  | .all (_ :: _ :: _) => by simp [disjuncts]
  | .any cs => by rw [disjuncts, exists_disjunctsOfList cs, isTrue_any]

theorem exists_disjunctsOfList : ∀ cs : List Condition,
    (∃ x ∈ disjunctsOfList cs, x.IsTrue d) ↔ ∃ c ∈ cs, c.IsTrue d
  | [] => by simp [disjunctsOfList]
  | c :: cs => by
    simp only [disjunctsOfList, List.mem_append, List.mem_cons, or_and_right, exists_or,
      exists_eq_left, exists_disjuncts c, exists_disjunctsOfList cs]

end

end Condition

/-! ### Checks -/

namespace Check

/-- A document passes a check; what fails does not count as passed. -/
def Passes (d : Document) : Check → Prop
  | meets c => c.IsTrue d
  | keyed k =>
    match d.bucketKey k with
    | .ok cell => cell ≠ .null
    | .error _ => False

instance (d : Document) : (c : Check) → Decidable (c.Passes d)
  | meets c => inferInstanceAs (Decidable (c.IsTrue d))
  | keyed k =>
    match h : d.bucketKey k with
    | .ok cell => decidable_of_iff (cell ≠ .null) (by simp [Passes, h])
    | .error _ => .isFalse (by simp [Passes, h])

theorem passes_iff_of_holds {d : Document} {check : Check} {b : Bool}
    (h : check.holds d = .ok b) : check.Passes d ↔ b = true := by
  cases check with
  | meets c => exact Condition.isTrue_iff_of_met h
  | keyed k =>
    obtain ⟨cell, hcell, hb⟩ := bind_eq_ok.mp h
    rw [pure_eq_ok] at hb
    rw [Passes, hcell, ← hb]
    simp

end Check

/-! ### Keys that are replaced -/

theorem isKeyField_iff {field : String} : isKeyField field = true ↔ field = "_type" ∨ field = "_id" := by
  simp [isKeyField, keyFields]

namespace Document

variable {d e : Document} {keys : KeyValues}

/-- A key field that is replaced has its new value. -/
theorem column?_withKeys {field value : String} (hfield : isKeyField field = true)
    (h : keys.lookup field = some value) : (d.withKeys keys).column? field = some value := by
  rcases isKeyField_iff.mp hfield with rfl | rfl <;> simp [column?, withKeys, h]

/-- Nothing changes if the keys are replaced by themselves. -/
theorem withKeys_eq_self
    (h : ∀ field value, keys.lookup field = some value → d.column? field = some value) :
    d.withKeys keys = d := by
  have htype : (keys.lookup "_type").getD d.docType = d.docType := by
    cases hlookup : keys.lookup "_type" with
    | none => rfl
    | some value => simpa [column?] using (h "_type" value hlookup).symm
  have hid : (keys.lookup "_id").getD d.id = d.id := by
    cases hlookup : keys.lookup "_id" with
    | none => rfl
    | some value => simpa [column?] using (h "_id" value hlookup).symm
  rw [withKeys, htype, hid]

@[simp] theorem withKeys_nil : d.withKeys [] = d := withKeys_eq_self fun _ _ h => nomatch h

/-- Two documents agree in a field. -/
def Agree (d e : Document) (field : String) : Prop :=
  d.fieldValue field = e.fieldValue field ∧ d.fieldText field = e.fieldText field

theorem agree_of_column? {field : String} {value : String} (hd : d.column? field = some value)
    (he : e.column? field = some value) : d.Agree e field := by
  rw [Agree, fieldValue, fieldText, fieldValue, fieldText, hd, he]
  exact ⟨rfl, rfl⟩

theorem holds_congr {t : Test} (h : d.Agree e t.field) : d.holds t = e.holds t := by
  obtain ⟨hvalue, htext⟩ := h
  cases t <;> simp only [Test.field] at hvalue htext <;>
    simp only [holds, fieldNumber, hvalue, htext]

end Document

namespace Condition

variable {d e : Document}

mutual

/-- Whether a condition is met depends on the fields that it reads. -/
theorem met_congr : ∀ (c : Condition) {unknown : Bool}, (∀ field ∈ c.fields, d.Agree e field) →
    c.met d.holds unknown = c.met e.holds unknown
  | .test t, unknown, h => by rw [met, met, Document.holds_congr (h t.field (by simp [fields]))]
  | .never, unknown, h => rfl
  | .all parts, unknown, h => by rw [met, met, allMet_congr parts h]
  | .any parts, unknown, h => by rw [met, met, anyMet_congr parts h]
  | .group c, unknown, h => by rw [met, met, met_congr c h]
  | .not c, unknown, h => by rw [met, met, met_congr c h]

theorem allMet_congr : ∀ (cs : List Condition) {unknown : Bool},
    (∀ field ∈ fieldsOfList cs, d.Agree e field) →
    allMet d.holds unknown cs = allMet e.holds unknown cs
  | [], unknown, h => rfl
  | c :: cs, unknown, h => by
    rw [fieldsOfList, List.forall_mem_append] at h
    rw [allMet, allMet, met_congr c h.1, allMet_congr cs h.2]

theorem anyMet_congr : ∀ (cs : List Condition) {unknown : Bool},
    (∀ field ∈ fieldsOfList cs, d.Agree e field) →
    anyMet d.holds unknown cs = anyMet e.holds unknown cs
  | [], unknown, h => rfl
  | c :: cs, unknown, h => by
    rw [fieldsOfList, List.forall_mem_append] at h
    rw [anyMet, anyMet, met_congr c h.1, anyMet_congr cs h.2]

end

end Condition

theorem Check.holds_congr {d e : Document} {check : Check}
    (h : ∀ field ∈ check.fields, d.Agree e field) : check.holds d = check.holds e := by
  cases check with
  | meets c => exact Condition.met_congr c h
  | keyed k =>
    have hfield : d.Agree e k.field := h k.field (by simp [fields])
    simp only [holds, Document.bucketKey, Document.fieldInstant, hfield.1]

/-! ### Checks that fix keys -/

theorem compareTexts_eq_iff {s t : String} : compareTexts s t = .eq ↔ s = t := by
  rw [compareTexts]
  split
  case isTrue hlt =>
    refine iff_of_false (fun h => nomatch h) ?_
    rintro rfl
    exact String.lt_irrefl s hlt
  case isFalse hnot =>
    split
    case isTrue hlt =>
      refine iff_of_false (fun h => nomatch h) ?_
      rintro rfl
      exact String.lt_irrefl s hlt
    case isFalse hnot' =>
      exact iff_of_true rfl (String.le_antisymm (String.not_lt.mp hnot') (String.not_lt.mp hnot))

/-- A cell equals a value. -/
def Cell.Equals (c : Cell) (v : Sql.Value) : Prop := c.compare? (Cell.ofValue v) = some .eq

theorem Cell.equals_text {s t : String} : (Cell.text s).Equals (.text t) ↔ s = t := by
  rw [Equals, ofValue_text]
  show some (compareTexts s t) = some .eq ↔ s = t
  rw [Option.some.injEq, compareTexts_eq_iff]

theorem Cell.map_eq_some_true {c : Cell} {v : Sql.Value} :
    (c.compare? (Cell.ofValue v)).map (· == .eq) = some true ↔ c.Equals v := by
  rw [Equals]
  rcases c.compare? (Cell.ofValue v) with _ | _ | _ | _ <;> simp

theorem Cell.among_eq_some_true {c : Cell} {values : List Sql.Value} :
    c.among values = some true ↔ ∃ v ∈ values, c.Equals v := by
  have hcontains : (values.map fun v => (c.compare? (Cell.ofValue v)).map (· == .eq)).contains
      (some true) = true ↔ ∃ v ∈ values, c.Equals v := by
    simp only [List.contains_iff_mem, List.mem_map, Cell.map_eq_some_true]
  rw [among, ← hcontains]
  split
  case isTrue h => exact iff_of_true rfl h
  case isFalse h =>
    refine iff_of_false ?_ h
    split <;> simp

namespace Document

variable {d : Document} {field value : String}

theorem truth_equals (hfield : d.column? field = some value) (v : Sql.Value) :
    d.truth (.equals field v) = some true ↔ (Cell.text value).Equals v := by
  have hholds : d.holds (.equals field v) =
      .ok (((Cell.text value).compare? (Cell.ofValue v)).map (· == .eq)) := by
    rw [holds, fieldText, hfield]
    rfl
  rw [truth_of_holds hholds, Cell.map_eq_some_true]

theorem truth_among (hfield : d.column? field = some value) (values : List Sql.Value) :
    d.truth (.among field values) = some true ↔ ∃ v ∈ values, (Cell.text value).Equals v := by
  have hholds : d.holds (.among field values) = .ok ((Cell.text value).among values) := by
    rw [holds, fieldText, hfield]
    rfl
  rw [truth_of_holds hholds, Cell.among_eq_some_true]

theorem exists_column? (d : Document) (hfield : isKeyField field = true) :
    ∃ value, d.column? field = some value := by
  rcases isKeyField_iff.mp hfield with rfl | rfl
  · exact ⟨d.docType, by simp [column?]⟩
  · exact ⟨d.id, by simp [column?]⟩

end Document

/-- A check that fixes a key field is passed by the documents with this value. -/
theorem Check.passes_of_fixed? {d : Document} {check : Check} {field value : String}
    (h : check.fixed? = some (field, value)) :
    isKeyField field = true ∧ (check.Passes d ↔ d.column? field = some value) := by
  have hkey : isKeyField field = true := by
    unfold fixed? at h
    split at h
    case h_3 => cases h
    all_goals
      split at h
      case isTrue hkey =>
        cases h
        exact hkey
      case isFalse => cases h
  refine ⟨hkey, ?_⟩
  obtain ⟨own, hown⟩ := d.exists_column? hkey
  rw [hown, Option.some.injEq]
  unfold fixed? at h
  split at h
  case h_1 f s =>
    obtain ⟨rfl, rfl⟩ : f = field ∧ s = value := by simp_all
    show d.truth (.equals f (.text s)) = some true ↔ own = s
    rw [Document.truth_equals hown, Cell.equals_text]
  case h_2 f s =>
    obtain ⟨rfl, rfl⟩ : f = field ∧ s = value := by simp_all
    show d.truth (.among f [.text s]) = some true ↔ own = s
    simp [Document.truth_among hown, Cell.equals_text]
  case h_3 => cases h

/-! ### Demands -/

namespace Demand

/-- A document meets a demand. -/
def Passes (d : Document) (demand : Demand) : Prop := demand.check.Passes (d.withKeys demand.given)

instance (d : Document) (demand : Demand) : Decidable (demand.Passes d) :=
  inferInstanceAs (Decidable (demand.check.Passes _))

theorem passes_iff_of_allHold {d : Document} {demands : List Demand} {b : Bool}
    (h : allHold d demands = .ok b) : (∀ a ∈ demands, a.Passes d) ↔ b = true := by
  induction demands with
  | nil =>
    cases h
    simp
  | cons a as ih =>
    obtain ⟨first, hfirst, h⟩ := bind_eq_ok.mp h
    have ha : a.Passes d ↔ first = true := Check.passes_iff_of_holds hfirst
    rw [List.forall_mem_cons, ha]
    cases first with
    | true => simp [ih h]
    | false =>
      cases h
      simp

/-- Demands some of which are made as if key fields had other values, these values being
those that other demands fix. -/
def Anchored (demands : List Demand) : Prop :=
  ∀ a ∈ demands, ∀ field value, a.given.lookup field = some value →
    ∃ f ∈ demands, f.given = [] ∧ f.check.fixed? = some (field, value)

section Anchored

variable {d : Document} {demands : List Demand}

/-- The keys of rows that meet the demands for which nothing is replaced are not replaced
for the others either. -/
theorem Anchored.withKeys (h : Anchored demands)
    (hd : ∀ f ∈ demands, f.given = [] → f.check.Passes d) :
    ∀ a ∈ demands, d.withKeys a.given = d := by
  intro a ha
  refine Document.withKeys_eq_self fun field value hlookup => ?_
  obtain ⟨f, hf, hgiven, hfixed⟩ := h a ha field value hlookup
  exact (Check.passes_of_fixed? hfixed).2.mp (hd f hf hgiven)

theorem passes_of_given_eq_nil {a : Demand} (h : a.given = []) : a.Passes d ↔ a.check.Passes d := by
  rw [Passes, h, Document.withKeys_nil]

/-- A demand that reads no field of the row itself has the same answer for all rows. -/
theorem Anchored.holds_of_isDecided (h : Anchored demands) {a : Demand} (ha : a ∈ demands)
    (hdecided : a.isDecided = true) (d e : Document) : a.holds d = a.holds e := by
  refine Check.holds_congr fun field hfield => ?_
  have hgiven : ∃ value, a.given.lookup field = some value := by
    rw [isDecided, fields, List.isEmpty_iff, List.filter_eq_nil_iff] at hdecided
    have hlookup := hdecided field hfield
    rw [Bool.not_eq_true, Option.isNone_eq_false_iff, Option.isSome_iff_exists] at hlookup
    exact hlookup
  obtain ⟨value, hlookup⟩ := hgiven
  obtain ⟨f, -, -, hfixed⟩ := h a ha field value hlookup
  have hkey : isKeyField field = true := (Check.passes_of_fixed? (d := d) hfixed).1
  exact Document.agree_of_column? (Document.column?_withKeys hkey hlookup)
    (Document.column?_withKeys hkey hlookup)

end Anchored

/-! ### The demands of checks -/

/-- One check more in front of demands; `fixing` are the key fields that no check behind
it fixes. -/
def step (keys : KeyValues) (check : Check) (behind : List Demand × List String) :
    List Demand × List String :=
  let (demands, fixing) := behind
  match check.fixed? with
  | some (field, _) =>
    if fixing.contains field then ({ check } :: demands, fixing.erase field)
    else ({ check, given := keys } :: demands, fixing)
  | none => ({ check, given := keys } :: demands, fixing)

/-- What has become of the checks behind a place: each is a demand of its own, with or
without replaced keys, and the last check that fixes a key field is made of the row
itself. -/
structure Fixing (keys : KeyValues) (behind : List Check) (state : List Demand × List String) :
    Prop where
  checks : state.1.map Demand.check = behind
  given : ∀ a ∈ state.1, (a.given = [] ∨ a.given = keys) ∧ a.settled = false
  nodup : state.2.Nodup
  free : ∀ field ∈ state.2, (fixedKeys behind).lookup field = none
  fixed : ∀ field, isKeyField field = true → field ∉ state.2 →
    ∃ value, (fixedKeys behind).lookup field = some value ∧
      ∃ a ∈ state.1, a.given = [] ∧ a.check.fixed? = some (field, value)

theorem lookup_fixedKeys_cons (check : Check) (checks : List Check) (field : String) :
    (fixedKeys (check :: checks)).lookup field =
      ((fixedKeys checks).lookup field).or (check.fixed?.toList.lookup field) := by
  have hkeys : fixedKeys (check :: checks) = fixedKeys checks ++ check.fixed?.toList := by
    simp only [fixedKeys, List.filterMap_cons]
    cases check.fixed? <;> simp
  rw [hkeys, List.lookup_append]

/-- One check more that is given the keys, because it fixes none or another check behind
it fixes the same. -/
theorem Fixing.cons {keys : KeyValues} {checks : List Check} {demands : List Demand}
    {fixing : List String} {check : Check} (h : Fixing keys checks (demands, fixing))
    (hcheck : ∀ field ∈ fixing, check.fixed?.toList.lookup field = none) :
    Fixing keys (check :: checks) ({ check, given := keys } :: demands, fixing) where
  checks := by rw [List.map_cons, h.checks]
  given := by
    rw [List.forall_mem_cons]
    exact ⟨⟨.inr rfl, rfl⟩, h.given⟩
  nodup := h.nodup
  free := by
    intro field hfield
    rw [lookup_fixedKeys_cons, h.free field hfield, hcheck field hfield]
    rfl
  fixed := by
    intro field hkey hnot
    obtain ⟨value, hvalue, a, ha, hfixed⟩ := h.fixed field hkey hnot
    refine ⟨value, ?_, a, List.mem_cons_of_mem _ ha, hfixed⟩
    rw [lookup_fixedKeys_cons, hvalue]
    rfl

/-- One check more that is made of the row itself, because none behind it fixes the same
key field. -/
theorem Fixing.cons_fixing {keys : KeyValues} {checks : List Check} {demands : List Demand}
    {fixing : List String} {check : Check} {field value : String}
    (h : Fixing keys checks (demands, fixing)) (hcheck : check.fixed? = some (field, value))
    (hfield : field ∈ fixing) :
    Fixing keys (check :: checks) ({ check } :: demands, fixing.erase field) where
  checks := by rw [List.map_cons, h.checks]
  given := by
    rw [List.forall_mem_cons]
    exact ⟨⟨.inl rfl, rfl⟩, h.given⟩
  nodup := h.nodup.erase field
  free := by
    intro other hother
    obtain ⟨hne, hother⟩ := (h.nodup.mem_erase_iff).mp hother
    rw [lookup_fixedKeys_cons, h.free other hother, hcheck]
    simp [beq_eq_false_iff_ne.mpr hne]
  fixed := by
    intro other hkey hnot
    rw [lookup_fixedKeys_cons, hcheck]
    by_cases hne : other = field
    · subst hne
      refine ⟨value, ?_, _, List.mem_cons_self, rfl, hcheck⟩
      rw [h.free other hfield]
      simp
    · have hnot' : other ∉ fixing := fun hmem => hnot ((h.nodup.mem_erase_iff).mpr ⟨hne, hmem⟩)
      obtain ⟨value', hvalue, a, ha, hfixed⟩ := h.fixed other hkey hnot'
      refine ⟨value', ?_, a, List.mem_cons_of_mem _ ha, hfixed⟩
      rw [hvalue]
      rfl

theorem keyFields_nodup : keyFields.Nodup := by decide

theorem fixing_foldr (keys : KeyValues) (checks : List Check) :
    Fixing keys checks (checks.foldr (step keys) ([], keyFields)) := by
  induction checks with
  | nil =>
    refine ⟨rfl, fun a ha => (nomatch ha), keyFields_nodup, fun _ _ => rfl, fun field hkey hnot => ?_⟩
    exact absurd (List.contains_iff_mem.mp hkey) hnot
  | cons check checks ih =>
    rw [List.foldr_cons]
    generalize checks.foldr (step keys) ([], keyFields) = state at ih
    obtain ⟨demands, fixing⟩ := state
    rw [step]
    cases hcheck : check.fixed? with
    | none => exact ih.cons fun _ _ => by rw [hcheck]; rfl
    | some fixed =>
      obtain ⟨field, value⟩ := fixed
      by_cases hfield : field ∈ fixing
      · simp only [List.contains_iff_mem.mpr hfield, if_true]
        exact ih.cons_fixing hcheck hfield
      · simp only [Bool.eq_false_iff.mpr (mt List.contains_iff_mem.mp hfield)]
        refine ih.cons fun other hother => ?_
        have hne : other ≠ field := fun h => hfield (h ▸ hother)
        rw [hcheck]
        simp [beq_eq_false_iff_ne.mpr hne]

theorem fixing_ofChecks (checks : List Check) :
    ∃ fixing, Fixing (fixedKeys checks) checks (ofChecks checks, fixing) :=
  ⟨_, fixing_foldr (fixedKeys checks) checks⟩

/-- **The keys that the demands of checks are given are fixed by some of them.** -/
theorem anchored_ofChecks (checks : List Check) : Anchored (ofChecks checks) := by
  obtain ⟨fixing, h⟩ := fixing_ofChecks checks
  intro a ha field value hlookup
  have hkeys : a.given = fixedKeys checks := by
    rcases (h.given a ha).1 with hnil | hkeys
    · rw [hnil] at hlookup
      cases hlookup
    · exact hkeys
  rw [hkeys] at hlookup
  have hnot : field ∉ fixing := fun hmem => nomatch (h.free field hmem).symm.trans hlookup
  have hkey : isKeyField field = true := by
    have hmem : (field, value) ∈ checks.filterMap Check.fixed? := by
      obtain ⟨before, behind, hkeys, -⟩ := List.lookup_eq_some_iff.mp hlookup
      rw [← List.mem_reverse, show (checks.filterMap Check.fixed?).reverse = _ from hkeys]
      simp
    obtain ⟨check, -, hcheck⟩ := List.mem_filterMap.mp hmem
    exact (Check.passes_of_fixed? (d := ⟨"", "", .null⟩) hcheck).1
  obtain ⟨value', hvalue, hfixed⟩ := h.fixed field hkey hnot
  obtain rfl : value' = value := Option.some.inj (hvalue.symm.trans hlookup)
  exact hfixed

/-- **The demands of checks are met by the rows that pass the checks.** -/
theorem forall_ofChecks {checks : List Check} {d : Document} :
    (∀ a ∈ ofChecks checks, a.Passes d) ↔ ∀ check ∈ checks, check.Passes d := by
  obtain ⟨fixing, h⟩ := fixing_ofChecks checks
  have hanchored : Anchored (ofChecks checks) := anchored_ofChecks checks
  have hchecks : (ofChecks checks).map Demand.check = checks := h.checks
  constructor
  · intro hpasses check hcheck
    rw [← hchecks, List.mem_map] at hcheck
    obtain ⟨a, ha, rfl⟩ := hcheck
    have hself := hanchored.withKeys fun f hf hgiven =>
      (passes_of_given_eq_nil hgiven).mp (hpasses f hf)
    have ha' : a.check.Passes (d.withKeys a.given) := hpasses a ha
    rwa [hself a ha] at ha'
  · intro hpasses a ha
    -- the checks that fix the keys are passed, so nothing is replaced
    have hself : d.withKeys a.given = d := by
      refine Document.withKeys_eq_self fun field value hlookup => ?_
      obtain ⟨f, hf, -, hfixed⟩ := hanchored a ha field value hlookup
      have hmem : f.check ∈ checks := by
        rw [← hchecks]
        exact List.mem_map_of_mem hf
      exact (Check.passes_of_fixed? hfixed).2.mp (hpasses f.check hmem)
    rw [Passes, hself]
    refine hpasses a.check ?_
    rw [← hchecks]
    exact List.mem_map_of_mem ha

end Demand

end DocSearch
