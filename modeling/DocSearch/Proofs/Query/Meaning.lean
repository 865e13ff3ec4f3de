import DocSearch.Proofs.Query.WellFormed
import DocSearch.Proofs.Sql.Rendering
import DocSearch.Query.Compile

/-!
# What a compiled predicate means

The meaning of a predicate is a recursion on it that knows nothing of texts: `must`
and `filter` are conjunctions, `must_not` is the negation of a disjunction, `should`
is a disjunction if it has members.  The text that the predicate compiles to is read,
by a reader that knows how tightly each word binds, as an expression of the same
truth, for all truth values of the comparisons in it.

## Main definitions

* `Predicate.truth` — the meaning of a predicate, given the truth of each test.
* `Condition.meaning?` — the meaning of a condition that may restrict nothing.

## Main results

* `meaning?_groupConditions` — the groups of a boolean query, for any connectives.
* `Predicate.compile_sound` — the compiled condition is tight and has the same truth.
* `Predicate.read_compile` — so is the text that it is rendered to.
-/

namespace DocSearch

open Sql Steps

/-! ### Meaning of predicates -/

/-- A text is found if its words are, all of them or one of them, each in one of the
fields; a text without words finds everything or nothing. -/
def TextQuery.truth (holds : Test → Truth) (q : TextQuery) (fields : List String) : Truth :=
  let found (pattern : String) : Truth :=
    Truth.any (fields.map fun field => holds (.like field pattern))
  match q.patterns, q.zeroTerms, q.operator with
  | [], .none, _ => some false
  | [], .all, _ => some true
  | patterns, _, .and => Truth.all (patterns.map found)
  | patterns, _, .or => Truth.any (patterns.map found)

/-- A field has one of several values. -/
def truthAmong (holds : Test → Truth) (field : String) (values : List Value) : Truth :=
  if values.isEmpty then some false else holds (.among field values)

namespace Predicate

mutual

/-- The truth of a predicate, given the truth of each test. -/
def truth (holds : Test → Truth) : Predicate → Truth
  | .matchAll => some true
  | .term field value _ => holds (.equals field value.toValue)
  | .docType value _ => holds (.equals "_type" (.text value))
  | .ids types values =>
    let ofType := if types.isEmpty then some true else truthAmong holds "_type" (types.map .text)
    Truth.and ofType (truthAmong holds "_id" (values.map .text))
  | .fullText field query _ => query.truth holds [field]
  | .multiField fields query => query.truth holds (fields.map (·.name))
  | .bool ⟨must, filter, mustNot, should, _⟩ =>
    Truth.all [Truth.all (truthList holds must), Truth.all (truthList holds filter),
      Truth.not (Truth.any (truthList holds mustNot)),
      if should.isEmpty then some true else Truth.any (truthList holds should)]
  | .terms field values => truthAmong holds field (values.map (·.toValue))
  | .range field bounds => Truth.all (bounds.map fun b => holds (boundTest field b))
  | .present field => holds (.present field)
  | .startsWith field text => holds (.like field (escapeLike text ++ "%"))

/-- The truth of several predicates. -/
def truthList (holds : Test → Truth) : List Predicate → List Truth
  | [] => []
  | p :: ps => truth holds p :: truthList holds ps

end

end Predicate

/-! ### Conditions that may restrict nothing -/

namespace Condition

variable {α : Type} (K : Connectives α) (holds : Test → α)

/-- What a condition means that may restrict nothing. -/
def meaning? : Option Condition → α
  | some c => c.meaning K holds
  | none => K.top

@[simp] theorem meaning?_none : meaning? K holds none = K.top := rfl

@[simp] theorem meaning?_some (c : Condition) : meaning? K holds (some c) = c.meaning K holds := rfl

/-- What restricts nothing can be left out of a conjunction. -/
theorem all_map_meaning? (cs : List (Option Condition)) :
    K.all (cs.map (meaning? K holds)) = K.all ((cs.filterMap id).map (meaning K holds)) := by
  induction cs with
  | nil => rfl
  | cons c cs ih =>
    cases c with
    | none => rw [List.map_cons, K.all_cons, ih, meaning?_none, K.top_and]; rfl
    | some c => rw [List.map_cons, K.all_cons, ih]; rfl

theorem meaning?_all? (cs : List (Option Condition)) :
    meaning? K holds (all? cs) = K.all (cs.map (meaning? K holds)) := by
  rw [all_map_meaning?, all?]
  cases cs.filterMap id with
  | nil => rfl
  | cons c cs => rw [meaning?_some, meaning, meaningList_eq_map]

theorem meaning?_group (c : Option Condition) :
    meaning? K holds (c.map .group) = meaning? K holds c := by
  cases c <;> rfl

/-- Members that restrict something are joined by `OR`. -/
theorem any?_map_some {cs : List Condition} (hne : cs ≠ []) :
    any? (cs.map some) = some (.any cs) := by
  have hid : (cs.map some).filterMap id = cs := by simp [List.filterMap_map]
  rw [any?, hid]
  cases cs with
  | nil => exact absurd rfl hne
  | cons c cs => rfl

/-- Either a member restricts nothing, or all are conditions. -/
theorem any_isNone_or_eq_map_some (cs : List (Option Condition)) :
    cs.any (·.isNone) = true ∨ ∃ ms : List Condition, cs = ms.map some := by
  induction cs with
  | nil => exact .inr ⟨[], rfl⟩
  | cons c cs ih =>
    cases c with
    | none => exact .inl rfl
    | some c =>
      rcases ih with h | ⟨ms, rfl⟩
      · exact .inl (by simp [h])
      · exact .inr ⟨c :: ms, rfl⟩

theorem any_isNone_map_some (ms : List Condition) : (ms.map some).any (·.isNone) = false := by
  induction ms with
  | nil => rfl
  | cons m ms ih => simp [ih]

/-- What the members of `must_not` mean together: if one of them restricts nothing,
no document is left. -/
def excludedMeaning (cs : List (Option Condition)) : α :=
  if cs.isEmpty then K.top
  else if cs.any (·.isNone) then K.bot
  else K.not (K.any (cs.map (meaning? K holds)))

/-- What the members of `should` mean together: if one of them restricts nothing,
every document is left. -/
def optionalMeaning (cs : List (Option Condition)) : α :=
  if cs.isEmpty then K.top
  else if cs.any (·.isNone) then K.top
  else K.any (cs.map (meaning? K holds))

theorem map_meaning?_map_some (ms : List Condition) :
    (ms.map some).map (meaning? K holds) = ms.map (meaning K holds) := by
  rw [List.map_map]
  rfl

theorem meaning?_excluded (cs : List (Option Condition)) :
    meaning? K holds (if cs.isEmpty then none else if cs.any (·.isNone) then some .never
      else (any? cs).map .not) = excludedMeaning K holds cs := by
  rw [excludedMeaning]
  split
  · rfl
  · next hne =>
    -- one member without text excludes everything; otherwise all of them have a text
    rcases any_isNone_or_eq_map_some cs with hnone | ⟨ms, rfl⟩
    · rw [if_pos hnone, if_pos hnone]
      rfl
    · have hms : ms ≠ [] := by
        rintro rfl
        exact hne rfl
      rw [any_isNone_map_some, any?_map_some hms, map_meaning?_map_some]
      show K.not (K.any (meaningList K holds ms)) = _
      rw [meaningList_eq_map]
      rfl

theorem meaning?_optional (cs : List (Option Condition)) :
    meaning? K holds (if cs.any (·.isNone) then none else (any? cs).map .group) =
      optionalMeaning K holds cs := by
  rw [optionalMeaning]
  rcases any_isNone_or_eq_map_some cs with hnone | ⟨ms, rfl⟩
  · rw [if_pos hnone, if_pos hnone, ite_self]
    rfl
  · rw [any_isNone_map_some, map_meaning?_map_some]
    cases ms with
    | nil => rfl
    | cons m ms =>
      rw [any?_map_some (by simp)]
      show K.any (meaningList K holds (m :: ms)) = _
      rw [meaningList_eq_map]
      rfl

/-- **What the groups of a boolean query mean**, for any connectives. -/
theorem meaning?_groupConditions (groups : BoolClauses (Option Condition)) :
    meaning? K holds (groupConditions groups) =
      K.all [K.all (groups.must.map (meaning? K holds)),
        K.all (groups.filter.map (meaning? K holds)),
        excludedMeaning K holds groups.mustNot, optionalMeaning K holds groups.should] := by
  rw [groupConditions, meaning?_all?]
  simp only [List.map_cons, List.map_nil, meaning?_group, meaning?_all?, meaning?_excluded,
    meaning?_optional]

/-! ### Tightness -/

/-- Whether a condition that may restrict nothing is tight. -/
def Tight? (c : Option Condition) : Prop := ∀ x, c = some x → Tight x

theorem tight?_none : Tight? none := by
  intro x h
  cases h

theorem tight?_some {c : Condition} (hc : Tight c) : Tight? (some c) := by
  intro x h
  cases h
  exact hc

theorem tight?_all? {cs : List (Option Condition)} (hcs : ∀ c ∈ cs, Tight? c) :
    Tight? (all? cs) := by
  rw [all?]
  have hmem : ∀ c ∈ cs.filterMap id, Tight c := by
    intro c hc
    rw [List.mem_filterMap] at hc
    obtain ⟨c?, hc?, rfl⟩ := hc
    exact hcs (some c) hc? c rfl
  cases h : cs.filterMap id with
  | nil => exact tight?_none
  | cons c ds => exact tight?_some (.all (by simp) (h ▸ hmem))

theorem tight?_group {c : Option Condition} (hc : Tight? c) : Tight? (c.map .group) := by
  cases c with
  | none => exact tight?_none
  | some c => exact tight?_some (.group (hc c rfl))

theorem tight_of_mem_map_some {ms : List Condition} (h : ∀ c ∈ ms.map some, Tight? c) :
    ∀ m ∈ ms, Tight m :=
  fun m hm => h (some m) (List.mem_map_of_mem hm) m rfl

theorem tight?_excluded {cs : List (Option Condition)} (hcs : ∀ c ∈ cs, Tight? c) :
    Tight? (if cs.isEmpty then none else if cs.any (·.isNone) then some .never
      else (any? cs).map .not) := by
  split
  · exact tight?_none
  · next hne =>
    rcases any_isNone_or_eq_map_some cs with hnone | ⟨ms, rfl⟩
    · rw [if_pos hnone]
      exact tight?_some .never
    · have hms : ms ≠ [] := by
        rintro rfl
        exact hne rfl
      rw [any_isNone_map_some, any?_map_some hms]
      exact tight?_some (.notAny hms (tight_of_mem_map_some hcs))

theorem tight?_optional {cs : List (Option Condition)} (hcs : ∀ c ∈ cs, Tight? c) :
    Tight? (if cs.any (·.isNone) then none else (any? cs).map .group) := by
  rcases any_isNone_or_eq_map_some cs with hnone | ⟨ms, rfl⟩
  · rw [if_pos hnone]
    exact tight?_none
  · rw [any_isNone_map_some]
    cases ms with
    | nil => exact tight?_none
    | cons m ms =>
      rw [any?_map_some (by simp)]
      exact tight?_some (.groupAny (by simp) (tight_of_mem_map_some hcs))

theorem tight?_groupConditions {groups : BoolClauses (Option Condition)}
    (hmust : ∀ c ∈ groups.must, Tight? c) (hfilter : ∀ c ∈ groups.filter, Tight? c)
    (hmustNot : ∀ c ∈ groups.mustNot, Tight? c) (hshould : ∀ c ∈ groups.should, Tight? c) :
    Tight? (groupConditions groups) := by
  rw [groupConditions]
  refine tight?_all? ?_
  simp only [List.mem_cons, List.not_mem_nil, or_false]
  rintro c (rfl | rfl | rfl | rfl)
  · exact tight?_group (tight?_all? hmust)
  · exact tight?_group (tight?_all? hfilter)
  · exact tight?_excluded hmustNot
  · exact tight?_optional hshould

end Condition

/-! ### Leaves -/

section Leaves

open Condition

variable {α : Type} (K : Connectives α) (holds : Test → α)

theorem meaning_grouped (combine : List Condition → Condition) (cs : List Condition) :
    (grouped combine cs).meaning K holds = (combine cs).meaning K holds := by
  match cs with
  | [] => rfl
  | [c] => rfl
  | c :: c' :: cs => rfl

theorem tight_grouped_any {cs : List Condition} (hne : cs ≠ []) (hcs : ∀ c ∈ cs, Tight c) :
    Tight (grouped .any cs) := by
  match cs with
  | [] => exact absurd rfl hne
  | [c] => exact .any (hcs c (by simp))
  | c :: c' :: cs => exact .groupAny hne hcs

theorem tight_grouped_all {cs : List Condition} (hne : cs ≠ []) (hcs : ∀ c ∈ cs, Tight c) :
    Tight (grouped .all cs) := by
  match cs with
  | [] => exact absurd rfl hne
  | [c] => exact .all hne hcs
  | c :: c' :: cs => exact .group (.all hne hcs)

theorem tight_grouped_combine {cs : List Condition} (op : Operator) (hne : cs ≠ [])
    (hcs : ∀ c ∈ cs, Tight c) : Tight (grouped op.combine cs) := by
  cases op with
  | and => exact tight_grouped_all hne hcs
  | or => exact tight_grouped_any hne hcs

theorem meaning_all_tests (ts : List Test) :
    (Condition.all (ts.map .test)).meaning K holds = K.all (ts.map holds) := by
  rw [meaning, meaningList_eq_map, List.map_map]
  rfl

theorem meaning_any_tests (ts : List Test) :
    (Condition.any (ts.map .test)).meaning K holds = K.any (ts.map holds) := by
  rw [meaning, meaningList_eq_map, List.map_map]
  rfl

end Leaves

/-! ### Compiled predicates -/

namespace Condition

variable (holds : Test → Truth)

/-- The truth of a condition that may restrict nothing. -/
def truth? (c : Option Condition) : Truth := meaning? Truth.connectives holds c

theorem any_eq_true_of_isNone {cs : List (Option Condition)} (h : cs.any (·.isNone) = true) :
    Truth.any (cs.map (truth? holds)) = some true := by
  obtain ⟨c, hc, hnone⟩ := List.any_eq_true.mp h
  cases c with
  | none => exact Truth.any_of_mem (List.mem_map.mpr ⟨none, hc, rfl⟩)
  | some c => cases hnone

theorem truth_excluded (cs : List (Option Condition)) :
    excludedMeaning Truth.connectives holds cs = Truth.not (Truth.any (cs.map (truth? holds))) := by
  rw [excludedMeaning]
  split
  · next hempty =>
    rw [List.isEmpty_iff.mp hempty]
    rfl
  · split
    · next hnone =>
      rw [any_eq_true_of_isNone holds hnone]
      rfl
    · rfl

theorem truth_optional (cs : List (Option Condition)) :
    optionalMeaning Truth.connectives holds cs =
      if cs.isEmpty then some true else Truth.any (cs.map (truth? holds)) := by
  rw [optionalMeaning]
  split
  · rfl
  · split
    · next hnone =>
      rw [any_eq_true_of_isNone holds hnone]
      rfl
    · rfl

theorem tight?_text (q : TextQuery) {fields : List String} (hne : fields ≠ []) :
    Tight? (q.compile fields) := by
  rw [TextQuery.compile, if_neg (c := fields.isEmpty) (by simpa using hne)]
  cases q.patterns with
  | nil =>
    cases q.zeroTerms with
    | none => exact tight?_some .never
    | all => exact tight?_none
  | cons pattern patterns =>
    refine tight?_some (tight_grouped_combine _ (by simp) ?_)
    intro c hc
    obtain ⟨pattern, -, rfl⟩ := List.mem_map.mp hc
    refine tight_grouped_any (by simpa using hne) ?_
    intro c hc
    obtain ⟨field, -, rfl⟩ := List.mem_map.mp hc
    exact .test trivial

theorem truth_pattern (fields : List String) (pattern : String) :
    (grouped .any (fields.map fun field => .test (.like field pattern))).meaning
        Truth.connectives holds =
      Truth.any (fields.map fun field => holds (.like field pattern)) := by
  have htests : (fields.map fun field => Condition.test (.like field pattern)) =
      (fields.map fun field => Test.like field pattern).map .test := by
    rw [List.map_map]
    rfl
  rw [meaning_grouped, htests, meaning_any_tests, List.map_map]
  rfl

/-- A compiled text is true if the text is found. -/
theorem truth?_text (q : TextQuery) {fields : List String} (hne : fields ≠ []) :
    truth? holds (q.compile fields) = q.truth holds fields := by
  rw [TextQuery.compile, TextQuery.truth, if_neg (c := fields.isEmpty) (by simpa using hne)]
  cases q.patterns with
  | nil => cases q.zeroTerms <;> rfl
  | cons pattern patterns =>
    show (grouped _ _).meaning Truth.connectives holds = _
    rw [meaning_grouped]
    cases q.operator with
    | and =>
      rw [Operator.combine, meaning, meaningList_eq_map, List.map_map]
      simp only [Function.comp_def, truth_pattern]
      rfl
    | or =>
      rw [Operator.combine, meaning, meaningList_eq_map, List.map_map]
      simp only [Function.comp_def, truth_pattern]
      rfl

end Condition

namespace Predicate

open Condition

variable (holds : Test → Truth)

theorem compileIds_tight (types values : List String) : Tight (compileIds types values) := by
  rw [compileIds]
  have hamong : ∀ (field : String) {items : List String}, items.isEmpty = false →
      Tight (.group (.test (.among field (items.map .text)))) := by
    intro field items hne
    refine .group (.test ?_)
    cases items with
    | nil => cases hne
    | cons item items => simp [Test.IsReadable]
  split
  · exact .never
  · next hvalues =>
    split
    · refine .all (by simp) fun c hc => ?_
      obtain rfl := List.mem_singleton.mp hc
      exact hamong "_id" (by simpa using hvalues)
    · next htypes =>
      refine .all (by simp) fun c hc => ?_
      rcases List.mem_cons.mp hc with rfl | hc
      · exact hamong "_type" (by simpa using htypes)
      · obtain rfl := List.mem_singleton.mp hc
        exact hamong "_id" (by simpa using hvalues)

theorem truth_compileIds (types values : List String) :
    (compileIds types values).truth holds = (Predicate.ids types values).truth holds := by
  have hand := Truth.connectives.and_top
  have htop := Truth.connectives.top_and
  rw [compileIds, truth]
  -- without identifiers nothing is found, and the types are not looked at
  cases values with
  | nil => exact (Truth.and_false _).symm
  | cons value values =>
    cases types with
    | nil => exact (hand _).trans (htop _).symm
    | cons type types =>
      show Truth.and (holds _) (Truth.and (holds _) (some true)) = Truth.and (holds _) (holds _)
      exact congrArg (Truth.and _) (hand _)

/-- The condition of a predicate that is compiled and its truth, for one predicate
and for several. -/
def Compiled (p : Predicate) (c : Option Condition) : Prop :=
  Tight? c ∧ ∀ holds, truth? holds c = p.truth holds

theorem compiled_of_tight {p : Predicate} {c : Condition} (hc : Tight c)
    (h : ∀ holds, c.truth holds = p.truth holds) : Compiled p (some c) :=
  ⟨tight?_some hc, h⟩

theorem truthList_eq_map (ps : List Predicate) : truthList holds ps = ps.map (truth holds) := by
  induction ps with
  | nil => rfl
  | cons p ps ih => rw [truthList, ih, List.map_cons]

theorem isReadable_boundTest (field : String) (b : RangeOp × Scalar) :
    (boundTest field b).IsReadable := by
  obtain ⟨op, _ | _ | _⟩ := b <;> exact trivial

theorem compiled_range {field : String} {bounds : List (RangeOp × Scalar)} (hne : bounds ≠ []) :
    Compiled (.range field bounds) (if bounds.isEmpty then none
      else some (.all (bounds.map fun b => .test (boundTest field b)))) := by
  rw [if_neg (c := bounds.isEmpty) (by simpa using hne)]
  refine compiled_of_tight (.all (by simpa using hne) ?_) fun holds => ?_
  · intro c hc
    obtain ⟨b, -, rfl⟩ := List.mem_map.mp hc
    exact .test (isReadable_boundTest field b)
  · have htests : (bounds.map fun b => Condition.test (boundTest field b)) =
        (bounds.map (boundTest field)).map .test := by
      rw [List.map_map]
      rfl
    rw [htests, truth, Condition.truth, meaning_all_tests, List.map_map]
    rfl

mutual

/-- **A compiled predicate is tight and has the truth of the predicate.** -/
theorem compile_sound :
    ∀ {p : Predicate} {c : Option Condition}, p.WellFormed → p.compile = .ok c → Compiled p c
  | .matchAll, c, _, h => by
    cases h
    exact ⟨tight?_none, fun holds => rfl⟩
  | .term field value boost, c, _, h => by
    cases h
    exact compiled_of_tight (.test trivial) fun holds => rfl
  | .docType value boost, c, _, h => by
    cases h
    exact compiled_of_tight (.test trivial) fun holds => rfl
  | .ids types values, c, _, h => by
    cases h
    exact compiled_of_tight (compileIds_tight types values) fun holds =>
      truth_compileIds holds types values
  | .fullText field query boost, c, _, h => by
    cases h
    exact ⟨tight?_text query (by simp), fun holds => truth?_text holds query (by simp)⟩
  | .multiField fields query, c, hp, h => by
    cases h
    have hfields : fields ≠ [] := hp
    have hne : fields.map (·.name) ≠ [] := by simpa using hfields
    exact ⟨tight?_text query hne, fun holds => truth?_text holds query hne⟩
  | .bool ⟨must, filter, mustNot, should, raw⟩, c, hp, h => by
    simp only [compile, bind_eq_ok, pure_eq_ok] at h
    obtain ⟨must', hmust, filter', hfilter, mustNot', hmustNot, -, -, should', hshould, rfl⟩ := h
    obtain ⟨htight₁, htruth₁⟩ := compileList_sound hp.1 hmust
    obtain ⟨htight₂, htruth₂⟩ := compileList_sound hp.2.1 hfilter
    obtain ⟨htight₃, htruth₃⟩ := compileList_sound hp.2.2.1 hmustNot
    obtain ⟨htight₄, htruth₄⟩ := compileList_sound hp.2.2.2 hshould
    refine ⟨tight?_groupConditions htight₁ htight₂ htight₃ htight₄, fun holds => ?_⟩
    -- whether `should` has members is asked of the conditions, and meant of the members
    have hempty : should'.isEmpty = should.isEmpty := by
      have hshould := congrArg List.isEmpty (htruth₄ holds)
      rwa [truthList_eq_map, List.isEmpty_map, List.isEmpty_map] at hshould
    rw [truth?, meaning?_groupConditions, truth_excluded, truth_optional, truth, ← htruth₁,
      ← htruth₂, ← htruth₃, ← htruth₄, hempty]
    rfl
  | .terms field values, c, _, h => by
    cases h
    cases values with
    | nil => exact compiled_of_tight .never fun holds => rfl
    | cons value values =>
      exact compiled_of_tight (.test (by simp [Test.IsReadable])) fun holds => rfl
  | .range field bounds, c, hp, h => by
    cases h
    exact compiled_range hp
  | .present field, c, _, h => by
    cases h
    exact compiled_of_tight (.test trivial) fun holds => rfl
  | .startsWith field text, c, _, h => by
    cases h
    exact compiled_of_tight (.test trivial) fun holds => rfl

theorem compileList_sound : ∀ {ps : List Predicate} {cs : List (Option Condition)},
    AllWellFormed ps → compileList ps = .ok cs →
      (∀ c ∈ cs, Tight? c) ∧ ∀ holds, cs.map (truth? holds) = truthList holds ps
  | [], cs, _, h => by
    cases h
    exact ⟨by simp, fun holds => rfl⟩
  | p :: ps, cs, hps, h => by
    simp only [compileList, bind_eq_ok, pure_eq_ok] at h
    obtain ⟨c, hc, ds, hds, rfl⟩ := h
    obtain ⟨htight, htruth⟩ := compile_sound hps.1 hc
    obtain ⟨htights, htruths⟩ := compileList_sound hps.2 hds
    refine ⟨fun x hx => ?_, fun holds => ?_⟩
    · rcases List.mem_cons.mp hx with rfl | hx
      · exact htight
      · exact htights x hx
    · rw [List.map_cons, htruth, htruths, truthList]

end

/-- **The text of a compiled query is read as what the query means.**  Either there is
no text, and every document is meant; or the text is an expression with the truth of
the predicate, whatever the truth of the comparisons in it. -/
theorem read_compile {v : Json} {p : Predicate} {c : Option Condition}
    (hp : Predicate.ofJson v = .ok p) (hc : p.compile = .ok c) (d : Dialect) :
    ((render? d c).sql = "" ∧ ∀ holds : Test → Truth, p.truth holds = some true) ∨
      ∃ e, Expr.read (render? d c) = some e ∧ ∀ holds : Comparison → Truth,
        e.truth holds = p.truth fun t => holds (t.comparison d) := by
  obtain ⟨htight, htruth⟩ := compile_sound (wellFormed_of_ofJson hp) hc
  cases c with
  | none => exact .inl ⟨rfl, fun holds => (htruth holds).symm⟩
  | some c =>
    obtain ⟨e, he, hmean⟩ := (htight c rfl).read_render d
    refine .inr ⟨e, he, fun holds => ?_⟩
    rw [← htruth, Expr.truth, hmean]
    rfl

theorem read_compile_must_not :
    ∃ e, Expr.read ⟨"NOT (sift_text(doc -> '$.lang') = ?)", [.text "en"]⟩ = some e ∧
      ∀ holds : Comparison → Truth, e.truth holds =
        Truth.not (holds ((Test.equals "lang" (.text "en")).comparison .sqlite)) := by
  have hread := read_compile
    (v := .obj [("bool", .obj [("must_not", .obj [("term", .obj [("lang", .str "en")])])])])
    (p := .bool { mustNot := [.term "lang" (.text "en") none] })
    (c := some (.all [.not (.any [.test (.equals "lang" (.text "en"))])])) (by rfl) (by rfl) .sqlite
  have htext : render? .sqlite (some (.all [.not (.any [.test (.equals "lang" (.text "en"))])])) =
      ⟨"NOT (sift_text(doc -> '$.lang') = ?)", [.text "en"]⟩ := by decide +kernel
  rw [htext] at hread
  rcases hread with ⟨hempty, -⟩ | ⟨e, he, htruth⟩
  · exact absurd hempty (by decide)
  · refine ⟨e, he, fun holds => ?_⟩
    rw [htruth]
    show Truth.all [Truth.all [], Truth.all [],
      Truth.not (Truth.any [holds ((Test.equals "lang" (.text "en")).comparison .sqlite)]),
      some true] = _
    generalize holds _ = t
    rcases t with _ | _ | _ <;> rfl

end Predicate

end DocSearch
