import DocSearch.Proofs.Query.Meaning
import DocSearch.Proofs.Store.Evaluation

/-!
# What a boolean query selects

A document is selected by a boolean query according to what its members do with the
document.  Under `must` and `filter` the members have to select it and under `should`
one of them has to.  Under `must_not` it is not enough that no member selects the
document: a member that is unknown, because the document lacks its field, keeps the
document out just as well.  Each member has to be false.

## Main definitions

* `Predicate.Selects`, `Predicate.Rejects`, `Predicate.Evaluates` — the text of a query
  is true on a document, is false, has a value.
* `Predicate.SelectsByComplement` — what would be selected if exclusion were
  complementation.

## Main results

* `Predicate.selects_bool_iff` — when a boolean query selects a document.
* `Predicate.exclusion_is_not_complementation` — members that do not select a document
  are not enough under `must_not`.
-/

namespace DocSearch

open Sql Steps

namespace Predicate

/-- The text of a query is true on a document. -/
def Selects (p : Predicate) (d : Document) : Prop :=
  ∃ c, p.compile = .ok c ∧ d.Selects (Condition.render? .sqlite c)

/-- The text of a query is false on a document. -/
def Rejects (p : Predicate) (d : Document) : Prop :=
  ∃ c, p.compile = .ok c ∧ d.Rejects (Condition.render? .sqlite c)

/-- The text of a query has a value on a document, be it unknown. -/
def Evaluates (p : Predicate) (d : Document) : Prop :=
  ∃ c, p.compile = .ok c ∧ d.Evaluates (Condition.render? .sqlite c)

/-- A query has no text: it restricts nothing. -/
def HasNoText (p : Predicate) : Prop :=
  ∃ c, p.compile = .ok c ∧ (Condition.render? .sqlite c).sql = ""

end Predicate

/-! ### Members as decisions -/

namespace Condition

/-- A condition that may restrict nothing as a decision about a document. -/
def decide? (d : Document) (c : Option Condition) : Decision EvaluationError :=
  meaning? Decision.connectives (decideTest d.holds) c

variable {c : Option Condition} {d : Document}

theorem sql_render?_eq_empty (hc : Tight? c) : (render? .sqlite c).sql = "" ↔ c = none := by
  cases c with
  | none => exact iff_of_true rfl rfl
  | some c => exact iff_of_false ((hc c rfl).sql_ne .sqlite) (by simp)

theorem selects_render? (hc : Tight? c) :
    d.Selects (render? .sqlite c) ↔ decide? d c false = .ok true := by
  rw [Document.Selects, sql_render?_eq_empty hc]
  cases c with
  | none => exact iff_of_true (.inl rfl) rfl
  | some c =>
    obtain ⟨e, he, hdecide⟩ := Document.decide_render (hc c rfl) d
    simp only [render?_some, he, Option.some.injEq, exists_eq_left', hdecide]
    simp [decide?]

theorem rejects_render? (hc : Tight? c) :
    d.Rejects (render? .sqlite c) ↔ decide? d c true = .ok false := by
  rw [Document.Rejects, ne_eq, sql_render?_eq_empty hc]
  cases c with
  | none => exact iff_of_false (fun h => h.1 rfl) (by simp [decide?, Decision.connectives])
  | some c =>
    obtain ⟨e, he, hdecide⟩ := Document.decide_render (hc c rfl) d
    simp only [render?_some, he, Option.some.injEq, exists_eq_left', hdecide]
    simp [decide?]

theorem evaluates_render? (hc : Tight? c) :
    d.Evaluates (render? .sqlite c) ↔ ∃ x, decide? d c false = .ok x := by
  rw [Document.Evaluates, sql_render?_eq_empty hc]
  cases c with
  | none => exact iff_of_true (.inl rfl) ⟨true, rfl⟩
  | some c =>
    obtain ⟨e, he, hdecide⟩ := Document.decide_render (hc c rfl) d
    constructor
    · rintro (h | ⟨e', x, he', hx⟩)
      · cases h
      · rw [render?_some, he] at he'
        cases he'
        exact ⟨x, by rw [← hx, hdecide]; rfl⟩
    · rintro ⟨x, hx⟩
      exact .inr ⟨e, x, he, by rw [hdecide]; exact hx⟩

/-- What is excluded is what every member rejects. -/
theorem excludedMeaning_eq_ok_true {cs : List (Option Condition)} :
    excludedMeaning Decision.connectives (decideTest d.holds) cs false = .ok true ↔
      ∀ c ∈ cs, decide? d c true = .ok false := by
  rw [excludedMeaning]
  cases hempty : cs.isEmpty with
  | true =>
    rw [List.isEmpty_iff.mp hempty]
    exact iff_of_true rfl (by simp)
  | false =>
    cases hnone : cs.any (·.isNone) with
    | true =>
      -- a member without text is met by every document, so it rejects none
      refine iff_of_false (by simp [Decision.connectives]) fun h => ?_
      obtain ⟨c, hc, hcnone⟩ := List.any_eq_true.mp hnone
      rw [Option.isNone_iff_eq_none.mp hcnone] at hc
      have htop := h none hc
      cases htop
    | false =>
      rw [if_neg (by simp), if_neg (by simp), Decision.not_eq_ok_true, Decision.any_eq_ok_false]
      simp [decide?]

/-- What is optional is left if a member restricts nothing, or if a member selects and
none before it fails. -/
theorem optionalMeaning_eq_ok_true {ps : List Predicate} {f : Predicate → Option Condition} :
    optionalMeaning Decision.connectives (decideTest d.holds) (ps.map f) false = .ok true ↔
      (ps ≠ [] → ∃ before p after, ps = before ++ p :: after ∧ decide? d (f p) false = .ok true ∧
        (f p = none ∨ ∀ n ∈ before, ∃ x, decide? d (f n) false = .ok x)) := by
  rw [optionalMeaning, List.isEmpty_map]
  cases hempty : ps.isEmpty with
  | true => exact iff_of_true rfl fun hne => absurd (List.isEmpty_iff.mp hempty) hne
  | false =>
    have hne : ps ≠ [] := List.isEmpty_eq_false_iff.mp hempty
    cases hnone : (ps.map f).any (·.isNone) with
    | true =>
      -- a member without text selects, whatever happens to those before it
      refine iff_of_true rfl fun _ => ?_
      obtain ⟨c, hc, hcnone⟩ := List.any_eq_true.mp hnone
      obtain ⟨p, hp, rfl⟩ := List.mem_map.mp hc
      obtain ⟨before, after, hps⟩ := List.append_of_mem hp
      have hfp : f p = none := Option.isNone_iff_eq_none.mp hcnone
      exact ⟨before, p, after, hps, by rw [hfp]; rfl, .inl hfp⟩
    | false =>
      have hsome : ∀ p ∈ ps, f p ≠ none := by
        intro p hp hfp
        have hmem : (ps.map f).any (·.isNone) = true :=
          List.any_eq_true.mpr ⟨f p, List.mem_map_of_mem hp, by rw [hfp]; rfl⟩
        rw [hnone] at hmem
        cases hmem
      rw [if_neg (by simp), if_neg (by simp), List.map_map, Decision.any_map_eq_ok_true]
      constructor
      · rintro ⟨before, p, after, hps, hp, hbefore⟩ -
        exact ⟨before, p, after, hps, hp, .inr hbefore⟩
      · intro h
        obtain ⟨before, p, after, hps, hp, hbefore⟩ := h hne
        refine ⟨before, p, after, hps, hp, hbefore.resolve_left (hsome p ?_)⟩
        rw [hps]
        simp

/-- When the groups of a boolean query are met. -/
theorem decide?_groupConditions {must filter mustNot should : List Predicate}
    {f : Predicate → Option Condition} :
    decide? d (groupConditions ⟨must.map f, filter.map f, mustNot.map f, should.map f, none⟩)
        false = .ok true ↔
      (∀ p ∈ must, decide? d (f p) false = .ok true) ∧
      (∀ p ∈ filter, decide? d (f p) false = .ok true) ∧
      (∀ p ∈ mustNot, decide? d (f p) true = .ok false) ∧
      (should ≠ [] → ∃ before p after, should = before ++ p :: after ∧
        decide? d (f p) false = .ok true ∧
        (f p = none ∨ ∀ n ∈ before, ∃ x, decide? d (f n) false = .ok x)) := by
  rw [decide?, meaning?_groupConditions, Decision.all_eq_ok_true]
  simp only [List.forall_mem_cons, excludedMeaning_eq_ok_true, optionalMeaning_eq_ok_true,
    Decision.all_eq_ok_true, List.forall_mem_map]
  simp [decide?]

end Condition

/-! ### Boolean queries -/

namespace Predicate

open Condition

/-- The condition of a query, if it can be compiled. -/
def condition (p : Predicate) : Option Condition :=
  match p.compile with
  | .ok c => c
  | .error _ => none

theorem compile_eq_condition {p : Predicate} {c : Option Condition} (h : p.compile = .ok c) :
    p.condition = c := by
  rw [condition, h]

theorem compileList_eq_ok {ps : List Predicate} {cs : List (Option Condition)}
    (h : compileList ps = .ok cs) :
    cs = ps.map condition ∧ ∀ p ∈ ps, p.compile = .ok p.condition := by
  induction ps generalizing cs with
  | nil =>
    cases h
    exact ⟨rfl, by simp⟩
  | cons p ps ih =>
    simp only [compileList, bind_eq_ok, pure_eq_ok] at h
    obtain ⟨c, hc, ds, hds, rfl⟩ := h
    obtain ⟨rfl, hps⟩ := ih hds
    rw [List.map_cons, compile_eq_condition hc]
    refine ⟨rfl, List.forall_mem_cons.mpr ⟨?_, hps⟩⟩
    rw [hc, compile_eq_condition hc]

/-- A query that compiles and is well formed. -/
structure Compiles (p : Predicate) : Prop where
  wellFormed : p.WellFormed
  compile : p.compile = .ok p.condition

namespace Compiles

variable {p : Predicate} {d : Document} (hp : p.Compiles)

include hp

theorem tight : Tight? p.condition := (compile_sound hp.wellFormed hp.compile).1

theorem selects_iff : p.Selects d ↔ decide? d p.condition false = .ok true := by
  rw [← selects_render? hp.tight, Selects, hp.compile]
  simp

theorem rejects_iff : p.Rejects d ↔ decide? d p.condition true = .ok false := by
  rw [← rejects_render? hp.tight, Rejects, hp.compile]
  simp

theorem evaluates_iff : p.Evaluates d ↔ ∃ x, decide? d p.condition false = .ok x := by
  rw [← evaluates_render? hp.tight, Evaluates, hp.compile]
  simp

theorem hasNoText_iff : p.HasNoText ↔ p.condition = none := by
  rw [← sql_render?_eq_empty hp.tight, HasNoText, hp.compile]
  simp

end Compiles

theorem compiles_of_mem {ps : List Predicate} {cs : List (Option Condition)}
    (hps : ∀ p ∈ ps, p.WellFormed) (hcs : compileList ps = .ok cs) : ∀ p ∈ ps, p.Compiles :=
  fun p hp => ⟨hps p hp, (compileList_eq_ok hcs).2 p hp⟩

/-- **When a boolean query selects a document.**  The members of `must` and `filter`
select it, the members of `must_not` are false on it, and one of those of `should`
selects it; no member of `should` before that one may fail, unless that one has no
text. -/
theorem selects_bool_iff {v : Json} {groups : BoolClauses Predicate} {c : Option Condition}
    (hv : Predicate.ofJson v = .ok (.bool groups)) (hc : (Predicate.bool groups).compile = .ok c)
    (d : Document) : (Predicate.bool groups).Selects d ↔
      (∀ m ∈ groups.must ++ groups.filter, m.Selects d) ∧ (∀ m ∈ groups.mustNot, m.Rejects d) ∧
      (groups.should ≠ [] → ∃ before m after, groups.should = before ++ m :: after ∧ m.Selects d ∧
        (m.HasNoText ∨ ∀ n ∈ before, n.Evaluates d)) := by
  have hbool := wellFormed_of_ofJson hv
  obtain ⟨must, filter, mustNot, should, raw⟩ := groups
  have hgroups := wellFormed_bool.mp hbool
  have hcompiles : (Predicate.bool ⟨must, filter, mustNot, should, raw⟩).Compiles :=
    ⟨hbool, by rw [compile_eq_condition hc, hc]⟩
  rw [hcompiles.selects_iff, compile_eq_condition hc]
  -- the conditions of a group are those of its members, one by one
  simp only [compile, bind_eq_ok, pure_eq_ok] at hc
  obtain ⟨_, hmust, _, hfilter, _, hmustNot, -, -, _, hshould, rfl⟩ := hc
  rw [(compileList_eq_ok hmust).1, (compileList_eq_ok hfilter).1, (compileList_eq_ok hmustNot).1,
    (compileList_eq_ok hshould).1, decide?_groupConditions]
  have h₁ : ∀ m ∈ must, m.Compiles := compiles_of_mem (hgroups .must) hmust
  have h₂ : ∀ m ∈ filter, m.Compiles := compiles_of_mem (hgroups .filter) hfilter
  have h₃ : ∀ m ∈ mustNot, m.Compiles := compiles_of_mem (hgroups .mustNot) hmustNot
  have h₄ : ∀ m ∈ should, m.Compiles := compiles_of_mem (hgroups .should) hshould
  rw [← and_assoc]
  refine and_congr ?_ (and_congr ?_ ?_)
  · rw [List.forall_mem_append]
    exact and_congr (forall₂_congr fun m hm => (h₁ m hm).selects_iff.symm)
      (forall₂_congr fun m hm => (h₂ m hm).selects_iff.symm)
  · exact forall₂_congr fun m hm => (h₃ m hm).rejects_iff.symm
  · refine imp_congr_right fun _ => exists_congr fun before => exists_congr fun m =>
      exists_congr fun after => and_congr_right fun heq => ?_
    have hm := h₄ m (by rw [heq]; simp)
    have hbefore : ∀ n ∈ before, n.Compiles := fun n hn => h₄ n (by rw [heq]; simp [hn])
    rw [hm.selects_iff, hm.hasNoText_iff]
    exact and_congr_right fun _ => or_congr_right
      (forall₂_congr fun n hn => (hbefore n hn).evaluates_iff.symm)

theorem compiles_term (field : String) (value : Scalar) (boost : Option Float) :
    (Predicate.term field value boost).Compiles := ⟨trivial, rfl⟩

theorem selects_bool_other_id :
    (Predicate.bool { mustNot := [.term "_id" (.text "b") none] }).Selects
      ⟨"doc", "a", .obj []⟩ := by
  have hv : Predicate.ofJson (.obj [("bool", .obj [("must_not",
      .obj [("term", .obj [("_id", .str "b")])])])]) =
        .ok (.bool { mustNot := [.term "_id" (.text "b") none] }) := by rfl
  refine (selects_bool_iff hv (c := some (.all [.not (.any [.test (.equals "_id" (.text "b"))])]))
    (by rfl) _).mpr ⟨by simp, ?_, by simp⟩
  intro m hm
  obtain rfl := List.mem_singleton.mp hm
  exact (compiles_term _ _ _).rejects_iff.mpr rfl

/-! ### Exclusion is not complementation -/

/-- What a boolean query would select if exclusion were complementation. -/
def SelectsByComplement (groups : BoolClauses Predicate) (d : Document) : Prop :=
  (∀ m ∈ groups.must ++ groups.filter, m.Selects d) ∧ (∀ m ∈ groups.mustNot, ¬ m.Selects d) ∧
    (groups.should ≠ [] → ∃ m ∈ groups.should, m.Selects d)

/-- A test of a field that a document lacks is neither true nor false. -/
theorem decide?_of_lacking (unknown : Bool) : decide? ⟨"doc", "a", .obj []⟩
    (condition (.term "lang" (.text "en") none)) unknown = .ok unknown := by
  have hpath : Dialect.sqlitePath "lang" = "$.lang" := by decide +kernel
  have hmember : followPath "$.lang" (.obj []) = .ok none := by
    simp [followPath, pathSteps, readSteps, followSteps, endsBareName]
  have hholds :
      (⟨"doc", "a", .obj []⟩ : Document).holds (.equals "lang" (.text "en")) = .ok none := by
    simp only [Document.holds, Document.fieldText, Document.column?, Document.member?, hpath,
      hmember]
    rfl
  show decideTest _ (.equals "lang" (.text "en")) unknown = _
  rw [decideTest, hholds]
  rfl

/-- **Exclusion is not complementation.**  A query that excludes a language does not
select a document without one, though no member of `must_not` selects it; and a member
of `should` that fails keeps out what a later one selects. -/
theorem exclusion_is_not_complementation :
    (∃ groups, Predicate.ofJson (.obj [("bool", .obj [("must_not",
          .obj [("term", .obj [("lang", .str "en")])])])]) = .ok (.bool groups) ∧
        SelectsByComplement groups ⟨"doc", "a", .obj []⟩ ∧
        ¬ (Predicate.bool groups).Selects ⟨"doc", "a", .obj []⟩) ∧
    (∃ groups, Predicate.ofJson (.obj [("bool", .obj [("should",
          .arr [.obj [("range", .obj [("_id", .obj [("gte", .num (.int 1))])])],
            .obj [("term", .obj [("_id", .str "a")])]])])]) = .ok (.bool groups) ∧
        SelectsByComplement groups ⟨"doc", "a", .obj []⟩ ∧
        ¬ (Predicate.bool groups).Selects ⟨"doc", "a", .obj []⟩) := by
  constructor
  · refine ⟨{ mustNot := [.term "lang" (.text "en") none] }, by rfl, ⟨by simp, ?_, by simp⟩, ?_⟩
    · intro m hm hselects
      obtain rfl := List.mem_singleton.mp hm
      have htrue := (compiles_term _ _ _).selects_iff.mp hselects
      rw [decide?_of_lacking] at htrue
      cases htrue
    · intro hselects
      have hcompiles : (Predicate.bool { mustNot := [.term "lang" (.text "en") none] }).Compiles :=
        ⟨by simp [WellFormed, AllWellFormed], by rfl⟩
      have hgroups : decide? ⟨"doc", "a", .obj []⟩ (groupConditions ⟨[].map condition,
          [].map condition, [.term "lang" (.text "en") none].map condition, [].map condition, none⟩)
            false = .ok true := hcompiles.selects_iff.mp hselects
      rw [decide?_groupConditions] at hgroups
      -- the negation of what is unknown is not true
      have hfalse := hgroups.2.2.1 _ (List.mem_singleton_self _)
      rw [decide?_of_lacking] at hfalse
      cases hfalse
  · refine ⟨{ should := [.range "_id" [(.gte, .number (.int 1))], .term "_id" (.text "a") none] },
      by rfl, ⟨by simp, by simp, fun _ => ⟨.term "_id" (.text "a") none, by simp, ?_⟩⟩, ?_⟩
    · exact (compiles_term _ _ _).selects_iff.mpr rfl
    · intro hselects
      have hcompiles : (Predicate.bool { should := [.range "_id" [(.gte, .number (.int 1))],
          .term "_id" (.text "a") none] }).Compiles :=
        ⟨by simp [WellFormed, AllWellFormed], by rfl⟩
      -- an identifier that is no number fails before the identifier is looked at
      have hfails : decide? ⟨"doc", "a", .obj []⟩ (condition (.bool { should :=
          [.range "_id" [(.gte, .number (.int 1))], .term "_id" (.text "a") none] })) false =
            .error (.notNumeric "a") := by rfl
      rw [hcompiles.selects_iff, hfails] at hselects
      cases hselects

end Predicate

end DocSearch
