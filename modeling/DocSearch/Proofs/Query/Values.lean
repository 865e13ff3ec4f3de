import DocSearch.Proofs.Query.Meaning
import DocSearch.Proofs.Sql.Inline

/-!
# The values that a query binds

A query is compiled to tests that compare fields with texts and with numbers.  It binds no
other values, so what is written in the place of its placeholders is a literal of a text or a
number with its sign.

## Main definitions

* `Condition.Binds` — all the values of a condition have a property.

## Main results

* `Predicate.binds?_of_compile` — a compiled query binds texts and numbers.
* `Predicate.tokenize_inline` — **the text of a query with its values is read as the text
  without them**, with a value for each placeholder.
-/

namespace DocSearch

open Sql Steps

/-- A text or a number. -/
def Sql.Value.IsTextOrNumber : Value → Prop
  | .text _ | .integer _ | .real _ => True
  | _ => False

/-! ### Values of fragments -/

namespace Sql.Fragment

variable {P : Value → Prop} {separator : String} {fs : List Fragment}

theorem params_chain (h : ∀ f ∈ fs, ∀ v ∈ f.params, P v) :
    ∀ v ∈ (chain separator fs).params, P v := by
  induction fs with
  | nil =>
    intro v hv
    cases hv
  | cons f rest ih =>
    rw [List.forall_mem_cons] at h
    cases rest with
    | nil => exact h.1
    | cons g rest =>
      intro v hv
      rcases List.mem_append.mp hv with hv | hv
      · exact h.1 v hv
      · exact ih h.2 v hv

theorem params_join (h : ∀ f ∈ fs, ∀ v ∈ f.params, P v) : ∀ v ∈ (join separator fs).params, P v :=
  params_chain fun f hf => h f (List.mem_filter.mp hf).1

end Sql.Fragment

/-! ### Values of conditions -/

/-- The values of a test. -/
def Test.values : Test → List Value
  | .equals _ v | .compareText _ _ v | .compareNumber _ _ v => [v]
  | .among _ vs => vs
  | .like _ pattern => [.text pattern]
  | .present _ => []

theorem Test.params_render (d : Dialect) (t : Test) : (t.render d).params = t.values := by
  cases t <;> rfl

namespace Condition

/-- All the values of a condition have a property. -/
inductive Binds (P : Value → Prop) : Condition → Prop where
  | test {t : Test} (ht : ∀ v ∈ t.values, P v) : Binds P (.test t)
  | never : Binds P .never
  | all {cs : List Condition} (hcs : ∀ c ∈ cs, Binds P c) : Binds P (.all cs)
  | any {cs : List Condition} (hcs : ∀ c ∈ cs, Binds P c) : Binds P (.any cs)
  | group {c : Condition} (hc : Binds P c) : Binds P (.group c)
  | not {c : Condition} (hc : Binds P c) : Binds P (.not c)

variable {P : Value → Prop}

/-- Only the values of its tests are bound to a condition. -/
theorem Binds.params_render {c : Condition} (hc : Binds P c) (d : Dialect) :
    ∀ v ∈ (c.render d).params, P v := by
  induction hc with
  | test ht =>
    rw [render, Test.params_render]
    exact ht
  | never =>
    rw [render]
    intro v hv
    cases hv
  | all _ ih | any _ ih =>
    rw [render, renderList_eq_map]
    exact Fragment.params_join (List.forall_mem_map.mpr ih)
  | group _ ih | not _ ih =>
    rw [render]
    exact ih

/-- All the values of a condition that may restrict nothing have a property. -/
def Binds? (P : Value → Prop) (c : Option Condition) : Prop := ∀ x ∈ c, Binds P x

theorem Binds?.params_render? {c : Option Condition} (hc : Binds? P c) (d : Dialect) :
    ∀ v ∈ (render? d c).params, P v := by
  cases c with
  | none =>
    intro v hv
    cases hv
  | some c => exact (hc c rfl).params_render d

@[simp] theorem binds?_none : Binds? P none := by
  intro x hx
  cases hx

@[simp] theorem binds?_some {c : Condition} : Binds? P (some c) ↔ Binds P c := by
  simp [Binds?]

theorem Binds?.map {c : Option Condition} (hc : Binds? P c) {f : Condition → Condition}
    (hf : ∀ x, Binds P x → Binds P (f x)) : Binds? P (c.map f) := by
  intro x hx
  obtain ⟨y, hy, rfl⟩ := Option.map_eq_some_iff.mp hx
  exact hf y (hc y hy)

theorem forall_mem_filterMap {cs : List (Option Condition)} (hcs : ∀ c ∈ cs, Binds? P c) :
    ∀ c ∈ cs.filterMap id, Binds P c := by
  intro c hc
  obtain ⟨c?, hc?, hsome⟩ := List.mem_filterMap.mp hc
  exact hcs c? hc? c hsome

theorem binds?_all? {cs : List (Option Condition)} (hcs : ∀ c ∈ cs, Binds? P c) :
    Binds? P (all? cs) := by
  have hmem := forall_mem_filterMap hcs
  unfold all?
  split
  · exact binds?_none
  · next h =>
    rw [h] at hmem
    exact binds?_some.mpr (.all hmem)

theorem binds?_any? {cs : List (Option Condition)} (hcs : ∀ c ∈ cs, Binds? P c) :
    Binds? P (any? cs) := by
  have hmem := forall_mem_filterMap hcs
  unfold any?
  split
  · exact binds?_none
  · next h =>
    rw [h] at hmem
    exact binds?_some.mpr (.any hmem)

theorem binds?_groupConditions {groups : BoolClauses (Option Condition)}
    (hmust : ∀ c ∈ groups.must, Binds? P c) (hfilter : ∀ c ∈ groups.filter, Binds? P c)
    (hmustNot : ∀ c ∈ groups.mustNot, Binds? P c) (hshould : ∀ c ∈ groups.should, Binds? P c) :
    Binds? P (groupConditions groups) := by
  have hrequired : ∀ {cs : List (Option Condition)}, (∀ c ∈ cs, Binds? P c) →
      Binds? P ((all? cs).map .group) := fun hcs => (binds?_all? hcs).map fun _ => .group
  unfold groupConditions
  apply binds?_all?
  simp only [List.forall_mem_cons]
  refine ⟨hrequired hmust, hrequired hfilter, ?_, ?_, by simp⟩
  · split
    · exact binds?_none
    split
    · exact binds?_some.mpr .never
    · exact (binds?_any? hmustNot).map fun _ => .not
  · split
    · exact binds?_none
    · exact (binds?_any? hshould).map fun _ => .group

theorem binds_grouped {combine : List Condition → Condition} {cs : List Condition}
    (h : Binds P (combine cs)) : Binds P (grouped combine cs) := by
  unfold grouped
  split
  · exact h
  · exact .group h

end Condition

/-! ### Values of queries -/

namespace Predicate

open Condition

theorem binds?_text (q : TextQuery) (fields : List String) :
    Binds? Value.IsTextOrNumber (q.compile fields) := by
  -- whatever the text is, all tests in its condition compare a field with a pattern
  have hlike : ∀ (field pattern : String),
      Binds Value.IsTextOrNumber (.test (.like field pattern)) :=
    fun field pattern => .test (by simp [Test.values, Value.IsTextOrNumber])
  have hcombine : ∀ {cs : List Condition}, (∀ c ∈ cs, Binds Value.IsTextOrNumber c) →
      Binds Value.IsTextOrNumber (grouped q.operator.combine cs) := by
    intro cs hcs
    apply binds_grouped
    cases q.operator with
    | and => exact .all hcs
    | or => exact .any hcs
  unfold TextQuery.compile
  split
  · split
    · exact binds?_some.mpr .never
    · exact binds?_none
  split
  · split
    · exact binds?_none
    · exact binds?_some.mpr (.group (.any (by simp)))
  · rw [binds?_some]
    apply hcombine
    rw [List.forall_mem_map]
    intro pattern _
    apply binds_grouped
    apply Binds.any
    rw [List.forall_mem_map]
    exact fun field _ => hlike field pattern

theorem binds_compileIds (types values : List String) :
    Binds Value.IsTextOrNumber (compileIds types values) := by
  have hamong : ∀ (field : String) (items : List String),
      Binds Value.IsTextOrNumber (.group (.test (.among field (items.map .text)))) := by
    intro field items
    refine .group (.test ?_)
    rw [Test.values, List.forall_mem_map]
    exact fun _ _ => trivial
  unfold compileIds
  split
  · exact .never
  split
  · exact .all (List.forall_mem_cons.mpr ⟨hamong _ _, by simp⟩)
  · exact .all (List.forall_mem_cons.mpr
      ⟨hamong _ _, List.forall_mem_cons.mpr ⟨hamong _ _, by simp⟩⟩)

theorem binds_boundTest (field : String) (b : RangeOp × Scalar) :
    Binds Value.IsTextOrNumber (.test (boundTest field b)) := by
  apply Binds.test
  obtain ⟨op, v⟩ := b
  cases v with
  | number n =>
    cases n with
    | int n =>
      cases h : int64? n <;>
        simp [boundTest, Test.values, numberValue, h, Value.IsTextOrNumber]
    | real x => simp [boundTest, Test.values, numberValue, Value.IsTextOrNumber]
  | _ => simp [boundTest, Test.values, Scalar.toValue, Value.IsTextOrNumber]

mutual

/-- **A compiled query binds texts and numbers.** -/
theorem binds?_of_compile : ∀ {p : Predicate} {c : Option Condition}, p.compile = .ok c →
    Binds? Value.IsTextOrNumber c
  | .matchAll, c, h => by
    cases h
    exact binds?_none
  | .term field value boost, c, h => by
    cases h
    exact binds?_some.mpr (.test (by simp [Test.values, Scalar.toValue, Value.IsTextOrNumber]))
  | .docType value boost, c, h => by
    cases h
    exact binds?_some.mpr (.test (by simp [Test.values, Value.IsTextOrNumber]))
  | .ids types values, c, h => by
    cases h
    exact binds?_some.mpr (binds_compileIds types values)
  | .fullText field query boost, c, h => by
    cases h
    exact binds?_text query [field]
  | .multiField fields query, c, h => by
    cases h
    exact binds?_text query (fields.map (·.name))
  | .bool ⟨must, filter, mustNot, should, raw⟩, c, h => by
    simp only [compile, bind_eq_ok, pure_eq_ok] at h
    obtain ⟨must', hmust, filter', hfilter, mustNot', hmustNot, -, -, should', hshould, rfl⟩ := h
    exact binds?_groupConditions (binds?_of_compileList hmust) (binds?_of_compileList hfilter)
      (binds?_of_compileList hmustNot) (binds?_of_compileList hshould)
  | .terms field values, c, h => by
    cases h
    rw [binds?_some]
    split
    · exact .never
    · refine .test ?_
      rw [Test.values, List.forall_mem_map]
      exact fun _ _ => trivial
  | .range field bounds, c, h => by
    cases h
    split
    · exact binds?_none
    · refine binds?_some.mpr (.all ?_)
      rw [List.forall_mem_map]
      exact fun b _ => binds_boundTest field b
  | .present field, c, h => by
    cases h
    exact binds?_some.mpr (.test (by simp [Test.values]))
  | .startsWith field text, c, h => by
    cases h
    exact binds?_some.mpr (.test (by simp [Test.values, Value.IsTextOrNumber]))

theorem binds?_of_compileList : ∀ {ps : List Predicate} {cs : List (Option Condition)},
    compileList ps = .ok cs → ∀ c ∈ cs, Binds? Value.IsTextOrNumber c
  | [], cs, h => by
    cases h
    simp
  | p :: ps, cs, h => by
    simp only [compileList, bind_eq_ok, pure_eq_ok] at h
    obtain ⟨c, hc, ds, hds, rfl⟩ := h
    exact List.forall_mem_cons.mpr ⟨binds?_of_compile hc, binds?_of_compileList hds⟩

end

/-- **The text of a query with its values is read as the text without them**, with a value for
each placeholder: for a text the one literal that stands for it, whatever it holds, and for a
number its spelling. -/
theorem tokenize_inline {p : Predicate} {c : Option Condition} (hc : p.compile = .ok c)
    (d : Dialect) : ∃ ts, tokenize (render? d c).sql = some ts ∧
      ts.count .placeholder = (render? d c).params.length ∧
      tokenize (render? d c).inline = some (withValues ts (render? d c).params) ∧
      .placeholder ∉ withValues ts (render? d c).params ∧
      ∀ v ∈ (render? d c).params,
        (∃ s, v = .text s ∧ v.tokens = [.literal s]) ∨
          ((∃ n, v = .integer n) ∨ ∃ x, v = .real x) ∧ v.tokens = numeralTokens v.literal := by
  obtain ⟨ts, hts, hcount, hinline⟩ := (isSpaced_render? d c).inline_read
  refine ⟨ts, hts, hcount, hinline, placeholder_notMem_withValues hcount, fun v hv => ?_⟩
  have hkind := (binds?_of_compile hc).params_render? d v hv
  cases v with
  | text s => exact .inl ⟨s, rfl, rfl⟩
  | integer n => exact .inr ⟨.inl ⟨n, rfl⟩, rfl⟩
  | real x => exact .inr ⟨.inr ⟨x, rfl⟩, rfl⟩
  | null | bool _ => cases hkind

/-- A text that looks like a placeholder between quotes in front of a comment, and a number with
a sign. -/
theorem tokenize_inline_quoted :
    let p : Predicate := .bool
      { must := [.term "a" (.text "'? \\--") none, .range "n" [(.gte, .number (.int (-7)))]] }
    let c : Option Condition := some (.all [.group (.all [.test (.equals "a" (.text "'? \\--")),
      .all [.test (.compareNumber "n" .gte (.integer (-7)))]])])
    p.compile = .ok c ∧
      ∃ ts, tokenize (render? .sqlite c).sql = some ts ∧
        tokenize (render? .sqlite c).inline =
          some (withValues ts [.text "'? \\--", .integer (-7)]) ∧
        Value.tokens (.text "'? \\--") = [.literal "'? \\--"] ∧
        Value.tokens (.integer (-7)) = [.sign "-", .word "7"] := by
  intro p c
  have hc : p.compile = .ok c := by rfl
  have hparams : (render? .sqlite c).params = [.text "'? \\--", .integer (-7)] := by
    decide +kernel
  obtain ⟨ts, hts, -, hinline, -, -⟩ := tokenize_inline hc .sqlite
  rw [hparams] at hinline
  exact ⟨hc, ts, hts, hinline, rfl, by decide +kernel⟩

end Predicate

end DocSearch
