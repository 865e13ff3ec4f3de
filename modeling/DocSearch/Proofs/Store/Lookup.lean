import DocSearch.Proofs.Store.Selection
import DocSearch.Store.Plan

/-!
# What is looked up

An index looks up comparisons of the key instead of making demands.  A comparison may
be a demand itself, however it is grouped, or it may follow from a demand that joins
comparisons of one column by `OR`.  In both cases the demand is met by the rows for which
the comparison holds, and by no others.

## Main definitions

* `Term.StandsFor` — what a term says about the condition that it was made of.
* `Document.keyCell` — a column of the key.

## Main results

* `Condition.standsFor_of_terms` — the only term of a condition stands for it.
* `Lookup.exists_demand` — what is looked up is a demand.
-/

namespace DocSearch

open Sql

/-! ### Columns of the key -/

theorem KeyColumn.field_of_ofField? {field : String} {column : KeyColumn}
    (h : KeyColumn.ofField? field = some column) : field = column.field := by
  unfold KeyColumn.ofField? at h
  split at h
  case isTrue htype =>
    cases h
    exact htype
  case isFalse =>
    split at h
    case isTrue hid =>
      cases h
      exact hid
    case isFalse => cases h

/-- A column of the key as a cell. -/
def Document.keyCell (d : Document) : KeyColumn → Cell
  | .docType => .text d.docType
  | .id => .text d.id

theorem Document.truth_equals_field (d : Document) (column : KeyColumn) (v : Value) :
    d.truth (.equals column.field v) = some true ↔ (d.keyCell column).Equals v := by
  cases column <;> exact Document.truth_equals (by simp [column?, KeyColumn.field]) v

theorem Document.truth_among_field (d : Document) (column : KeyColumn) (values : List Value) :
    d.truth (.among column.field values) = some true ↔
      ∃ v ∈ values, (d.keyCell column).Equals v := by
  cases column <;> exact Document.truth_among (by simp [column?, KeyColumn.field]) values

theorem Document.truth_of_soleValue? {d : Document} {t : Test} {column : KeyColumn} {v : Value}
    (hkey : t.keyUse? = some (column, .equal)) (hvalue : t.soleValue? = some v) :
    d.truth t = some true ↔ (d.keyCell column).Equals v := by
  have hfield : t.field = column.field := by
    obtain ⟨column', hcolumn, hkey⟩ := Option.bind_eq_some_iff.mp hkey
    have hcolumns : column' = column := by
      split at hkey <;> simp at hkey <;> simp [hkey]
    exact KeyColumn.field_of_ofField? (hcolumns ▸ hcolumn)
  unfold Test.soleValue? at hvalue
  split at hvalue
  case h_1 field v' =>
    cases hvalue
    rw [show field = column.field from hfield]
    exact d.truth_equals_field column v
  case h_2 field v' =>
    cases hvalue
    rw [show field = column.field from hfield, d.truth_among_field column]
    simp
  case h_3 => cases hvalue

/-! ### Terms and conditions -/

/-- What a term says about the condition that it was made of. -/
def Term.StandsFor (c : Condition) : Term → Prop
  | .key _ origin column use test => origin = none ∧ test.keyUse? = some (column, use) ∧
      ∀ d : Document, c.IsTrue d ↔ d.truth test = some true
  | .either _ branches => ∃ g parts, branches = Clause.branches (Condition.clausesOfList g parts) ∧
      ∀ d : Document, c.IsTrue d ↔ ∃ p ∈ parts, p.IsTrue d
  | _ => True

theorem Term.StandsFor.congr {c c' : Condition} {t : Term} (h : t.StandsFor c)
    (hc : ∀ d : Document, c'.IsTrue d ↔ c.IsTrue d) : t.StandsFor c' := by
  cases t with
  | key fields origin column use test =>
    obtain ⟨horigin, hkey, htruth⟩ := h
    exact ⟨horigin, hkey, fun d => (hc d).trans (htruth d)⟩
  | either fields branches =>
    obtain ⟨g, parts, hbranches, htruth⟩ := h
    exact ⟨g, parts, hbranches, fun d => (hc d).trans (htruth d)⟩
  | hint column => trivial
  | other fields implied => trivial

theorem Test.standsFor_term (g : Givens) (t : Test) : (t.term g).StandsFor (.test t) := by
  rw [term]
  split
  case isTrue => trivial
  case isFalse =>
    cases hkey : t.keyUse? with
    | none => trivial
    | some use => exact ⟨rfl, hkey, fun d => Iff.rfl⟩

namespace Condition

mutual

/-- A condition without terms asks for nothing. -/
theorem isTrue_of_terms_eq_nil (d : Document) (g : Givens) :
    ∀ c : Condition, c.terms g = [] → c.IsTrue d
  | .test t, h => by simp [terms] at h
  | .never, h => by simp [terms] at h
  | .not c, h => by simp [terms] at h
  | .group c, h => by
    rw [terms] at h
    exact isTrue_of_terms_eq_nil d g c h
  | .all parts, h => by
    rw [terms] at h
    exact isTrue_all.mpr (isTrue_of_termsOfList_eq_nil d g parts h)
  | .any [], h => by simp [terms] at h
  | .any [c], h => by
    rw [terms] at h
    exact isTrue_any.mpr ⟨c, List.mem_cons_self, isTrue_of_terms_eq_nil d g c h⟩
  | .any (_ :: _ :: _), h => by simp [terms] at h

theorem isTrue_of_termsOfList_eq_nil (d : Document) (g : Givens) :
    ∀ cs : List Condition, termsOfList g cs = [] → ∀ c ∈ cs, c.IsTrue d
  | [], _ => by simp
  | c :: cs, h => by
    rw [termsOfList, List.append_eq_nil_iff] at h
    rw [List.forall_mem_cons]
    exact ⟨isTrue_of_terms_eq_nil d g c h.1, isTrue_of_termsOfList_eq_nil d g cs h.2⟩

end

mutual

/-- **The only term of a condition stands for it**, however the condition is grouped. -/
theorem standsFor_of_terms (g : Givens) {t : Term} :
    ∀ c : Condition, c.terms g = [t] → t.StandsFor c
  | .test u, h => by
    rw [terms, List.singleton_inj] at h
    exact h ▸ u.standsFor_term g
  | .never, h => by
    rw [terms, List.singleton_inj] at h
    exact h ▸ trivial
  | .not c, h => by
    rw [terms, List.singleton_inj] at h
    exact h ▸ trivial
  | .group c, h => by
    rw [terms] at h
    exact (standsFor_of_terms g c h).congr fun d => isTrue_group c
  | .all parts, h => by
    rw [terms] at h
    exact standsFor_of_termsOfList g parts h
  | .any [], h => by
    rw [terms, List.singleton_inj] at h
    · exact h ▸ ⟨g, [], rfl, fun d => isTrue_any⟩
    · intro c hc
      cases hc
  | .any [c], h => by
    rw [terms] at h
    exact (standsFor_of_terms g c h).congr fun d => by simp
  | .any (c :: c' :: cs), h => by
    rw [terms, List.singleton_inj] at h
    · exact h ▸ ⟨g, c :: c' :: cs, rfl, fun d => isTrue_any⟩
    · intro c hc
      cases hc

theorem standsFor_of_termsOfList (g : Givens) {t : Term} :
    ∀ cs : List Condition, termsOfList g cs = [t] → t.StandsFor (.all cs)
  | [], h => by simp [termsOfList] at h
  | c :: cs, h => by
    rw [termsOfList, List.append_eq_singleton_iff] at h
    rcases h with ⟨hnil, h⟩ | ⟨h, hnil⟩
    · refine (standsFor_of_termsOfList g cs h).congr fun d => ?_
      simp [isTrue_of_terms_eq_nil d g c hnil]
    · refine (standsFor_of_terms g c h).congr fun d => ?_
      have hcs : ∀ x ∈ cs, x.IsTrue d := isTrue_of_termsOfList_eq_nil d g cs hnil
      simp only [isTrue_all, List.forall_mem_cons, and_iff_left hcs]

end

end Condition

/-! ### What follows from conditions joined by `OR` -/

theorem Term.soleEquality?_eq_some {clause : Clause} {column : KeyColumn} {v : Value}
    (h : Term.soleEquality? clause = some (column, v)) :
    ∃ fields test, clause = [.key fields none column .equal test] ∧ test.soleValue? = some v := by
  unfold Term.soleEquality? at h
  split at h
  case h_1 fields column' test =>
    cases hvalue : test.soleValue? with
    | none => rw [hvalue] at h; cases h
    | some v' =>
      rw [hvalue] at h
      cases h
      exact ⟨fields, test, rfl, hvalue⟩
  case h_2 => cases h

/-- A document has the value that one of several clauses asks for, each of which asks for a
value of a column. -/
def Document.MeetsEquality (d : Document) (clauses : List Clause) : Prop :=
  ∃ clause ∈ clauses, ∃ column v, Term.soleEquality? clause = some (column, v) ∧
    (d.keyCell column).Equals v

theorem Document.meetsEquality_append {d : Document} {cs cs' : List Clause} :
    d.MeetsEquality (cs ++ cs') ↔ d.MeetsEquality cs ∨ d.MeetsEquality cs' := by
  simp only [MeetsEquality, List.mem_append, or_and_right, exists_or]

theorem Document.meetsEquality_singleton {d : Document} {clause : Clause} {column : KeyColumn}
    {v : Value} (h : Term.soleEquality? clause = some (column, v)) :
    d.MeetsEquality [clause] ↔ (d.keyCell column).Equals v := by
  constructor
  · rintro ⟨_, hclause, column', v', hsole, hequals⟩
    rw [List.mem_singleton.mp hclause, h, Option.some.injEq, Prod.mk.injEq] at hsole
    rwa [hsole.1, hsole.2]
  · intro hequals
    exact ⟨clause, List.mem_cons_self, column, v, h, hequals⟩

/-- Every clause asks for nothing but a value of a column. -/
def Clause.AllSole (clauses : List Clause) : Prop :=
  ∀ clause ∈ clauses, (Term.soleEquality? clause).isSome

/-- The clause of a condition whose only term stands for it. -/
theorem Term.StandsFor.meetsEquality {c : Condition} {t : Term} (h : t.StandsFor c)
    (hsole : Clause.AllSole [[t]]) (d : Document) : d.MeetsEquality [[t]] ↔ c.IsTrue d := by
  obtain ⟨⟨column, v⟩, hv⟩ := Option.isSome_iff_exists.mp (hsole [t] List.mem_cons_self)
  rw [Document.meetsEquality_singleton hv]
  obtain ⟨fields, test, ht, hvalue⟩ := Term.soleEquality?_eq_some hv
  rw [List.singleton_inj] at ht
  subst ht
  obtain ⟨-, hkey, htruth⟩ := h
  rw [htruth d, Document.truth_of_soleValue? hkey hvalue]

theorem Clause.close_eq_singleton {ts : List Term} {t : Term} (h : Clause.close ts = [t]) :
    ts = [t] := by
  rw [close, List.append_eq_singleton_iff] at h
  rcases h with ⟨hnil, h⟩ | ⟨h, -⟩
  · rw [hnil] at h
    simp at h
  · exact h

theorem Clause.ofTerm_of_sole {t : Term} (h : Clause.AllSole [Clause.ofTerm t]) :
    Clause.ofTerm t = [t] := by
  obtain ⟨⟨column, v⟩, hv⟩ := Option.isSome_iff_exists.mp (h _ List.mem_cons_self)
  obtain ⟨fields, test, ht, -⟩ := Term.soleEquality?_eq_some hv
  cases t with
  | other fields' implied =>
    -- anything else stays the first term of its clause
    rw [ofTerm] at ht
    have := close_eq_singleton ht
    simp at this
  | key | hint | either => rfl

namespace Condition

mutual

/-- Conditions joined by `OR` that ask for nothing but values of columns. -/
theorem meetsEquality_clauses (d : Document) (g : Givens) : ∀ c : Condition,
    Clause.AllSole (c.clauses g) → (d.MeetsEquality (c.clauses g) ↔ c.IsTrue d)
  | .test t, h => by
    have hterm := Clause.ofTerm_of_sole h
    rw [clauses, hterm] at h ⊢
    exact (t.standsFor_term g).meetsEquality h d
  | .never, h => by
    rw [clauses] at h
    exact absurd (h _ List.mem_cons_self) (by simp [Term.soleEquality?])
  | .not c, h => by
    rw [clauses] at h
    exact absurd (h _ List.mem_cons_self) (by simp [Term.soleEquality?])
  | .group c, h => by
    rw [clauses] at h ⊢
    rw [meetsEquality_clauses d g c h, isTrue_group]
  | .any parts, h => by
    rw [clauses] at h ⊢
    rw [meetsEquality_clausesOfList d g parts h, isTrue_any]
  | .all [], h => by
    rw [clauses] at h
    · exact absurd (h _ List.mem_cons_self) (by simp [termsOfList, Clause.close, Term.soleEquality?])
    · intro c hc
      cases hc
  | .all [c], h => by
    rw [clauses] at h ⊢
    rw [meetsEquality_clauses d g c h]
    simp
  | .all (c :: c' :: cs), h => by
    have hclauses : (Condition.all (c :: c' :: cs)).clauses g =
        [Clause.close (termsOfList g (c :: c' :: cs))] := by
      rw [clauses]
      intro c hc
      cases hc
    rw [hclauses] at h ⊢
    -- two conditions or more are one clause, which is sole only if it is closed to one term
    obtain ⟨⟨column, v⟩, hv⟩ := Option.isSome_iff_exists.mp (h _ List.mem_cons_self)
    obtain ⟨fields, test, hclose, -⟩ := Term.soleEquality?_eq_some hv
    have hterms := Clause.close_eq_singleton hclose
    rw [hclose] at h ⊢
    exact (standsFor_of_termsOfList g _ hterms).meetsEquality h d

theorem meetsEquality_clausesOfList (d : Document) (g : Givens) : ∀ cs : List Condition,
    Clause.AllSole (clausesOfList g cs) →
    (d.MeetsEquality (clausesOfList g cs) ↔ ∃ c ∈ cs, c.IsTrue d)
  | [], _ => by simp [clausesOfList, Document.MeetsEquality]
  | c :: cs, h => by
    rw [clausesOfList] at h ⊢
    rw [Document.meetsEquality_append,
      meetsEquality_clauses d g c fun clause hc => h clause (List.mem_append_left _ hc),
      meetsEquality_clausesOfList d g cs fun clause hc => h clause (List.mem_append_right _ hc)]
    simp

end

end Condition

/-- What follows from clauses each of which asks for a value of one column. -/
theorem Term.ofEqualities_eq_some {origin : Nat} {clauses : List Clause} {t : Term}
    (h : Term.ofEqualities origin clauses = some t) :
    Clause.AllSole clauses ∧ ∃ fields column use test,
      t = .key fields (some origin) column use test ∧
      ∀ d : Document, d.truth test = some true ↔ d.MeetsEquality clauses := by
  obtain ⟨equalities, hequalities, h⟩ := Option.bind_eq_some_iff.mp h
  obtain ⟨⟨column, v⟩, -, h⟩ := Option.bind_eq_some_iff.mp h
  have hmap : clauses.map soleEquality? = equalities.map some := Steps.mapM_eq_some.mp hequalities
  have hmem : ∀ e, e ∈ equalities ↔ ∃ clause ∈ clauses, soleEquality? clause = some e := by
    intro e
    rw [← List.mem_map, hmap]
    simp
  -- the clauses become one term only if all of them ask for the same column
  simp only at h
  split at h
  case isFalse => cases h
  case isTrue hall =>
    cases h
    refine ⟨fun clause hclause => ?_, _, column, _, _, rfl, fun d => ?_⟩
    · have hsole : soleEquality? clause ∈ equalities.map some := by
        rw [← hmap]
        exact List.mem_map_of_mem hclause
      obtain ⟨e, -, he⟩ := List.mem_map.mp hsole
      rw [← he]
      rfl
    · rw [d.truth_among_field column]
      simp only [List.mem_map, List.all_eq_true, beq_iff_eq] at hall ⊢
      constructor
      · rintro ⟨_, ⟨⟨column', v'⟩, he, rfl⟩, hequals⟩
        obtain ⟨clause, hclause, hsole⟩ := (hmem _).mp he
        obtain rfl : column' = column := hall _ he
        exact ⟨clause, hclause, column', v', hsole, hequals⟩
      · rintro ⟨clause, hclause, column', v', hsole, hequals⟩
        have he := (hmem _).mpr ⟨clause, hclause, hsole⟩
        obtain rfl : column' = column := hall _ he
        exact ⟨v', ⟨_, he, rfl⟩, hequals⟩

/-- What follows from the terms of conditions joined by `OR`: nothing that is implied by
the presence of a value asks for a value. -/
theorem Condition.truth_of_ofEqualities {g : Givens} {parts : List Condition} {origin : Nat}
    {t : Term}
    (h : Term.ofEqualities origin (Clause.branches (clausesOfList g parts)) = some t) :
    ∃ fields column use test, t = .key fields (some origin) column use test ∧
      ∀ d : Document, d.truth test = some true ↔ ∃ p ∈ parts, p.IsTrue d := by
  obtain ⟨hsole, fields, column, use, test, ht, htruth⟩ := Term.ofEqualities_eq_some h
  refine ⟨fields, column, use, test, ht, fun d => ?_⟩
  have hhints : ¬ d.MeetsEquality ((clausesOfList g parts).reverse.filterMap fun c =>
      (Clause.presence? c).map fun column => [.hint column]) := by
    rintro ⟨clause, hclause, column, v, hsole, -⟩
    obtain ⟨c, -, hc⟩ := List.mem_filterMap.mp hclause
    obtain ⟨column', -, rfl⟩ := Option.map_eq_some_iff.mp hc
    cases hsole
  rw [htruth, Clause.branches, Document.meetsEquality_append, or_iff_left hhints]
  exact meetsEquality_clausesOfList d g parts fun clause hc => hsole clause (List.mem_append_left _ hc)

/-! ### Lookups -/

theorem Demand.standsFor_term {a : Demand} :
    (∃ c, a.check = .meets c ∧ a.term.StandsFor c) ∨ ∃ fields, a.term = .other fields [] := by
  rw [term]
  cases a.check with
  | keyed k => exact .inr ⟨_, rfl⟩
  | meets c =>
    split
    case h_1 k hk => cases hk
    case h_2 c' hc' =>
      cases hc'
      split
      case h_1 t ht => exact .inl ⟨c, rfl, Condition.standsFor_of_terms _ c ht⟩
      case h_2 => exact .inr ⟨_, rfl⟩

/-- A comparison among the terms of demands is one of them, or it follows from one. -/
theorem Clause.key_of_mem_close {ts : List Term} {place : Nat} {fields : List String}
    {origin : Option Nat} {column : KeyColumn} {use : KeyUse} {test : Test}
    (h : (Clause.close ts)[place]? = some (.key fields origin column use test)) :
    ts[place]? = some (.key fields origin column use test) ∨
      ∃ place' fields' branches, ts[place']? = some (.either fields' branches) ∧
        Term.ofEqualities place' branches = some (.key fields origin column use test) := by
  rw [close, List.getElem?_append] at h
  split at h
  case isTrue => exact .inl h
  case isFalse =>
    obtain ⟨⟨t, place'⟩, ht, hkey⟩ := List.mem_flatMap.mp (List.mem_of_getElem? h)
    rw [List.mem_reverse, List.mem_zipIdx_iff_getElem?] at ht
    cases t with
    | either fields' branches =>
      exact .inr ⟨place', fields', branches, ht, Option.mem_toList.mp hkey⟩
    | other fields' implied => simp [Term.consequences] at hkey
    | key => simp [Term.consequences] at hkey
    | hint => simp [Term.consequences] at hkey

/-- **What is looked up is a demand**: the rows that meet the demand at the place of the
lookup are those for which the test holds. -/
theorem Lookup.exists_demand {demands : List Demand} {r : TermRef} {l : Lookup}
    (h : Lookup.ofRef? (Clause.ofDemands demands) r = some l) :
    ∃ a, demands[l.place]? = some a ∧
      ∀ d : Document, a.check.Passes d ↔ d.truth l.test = some true := by
  rw [ofRef?] at h
  split at h
  case h_2 => cases h
  case h_1 fields origin column use test hterm =>
    cases h
    -- the term is that of a demand, or it follows from the branches of one
    rcases Clause.key_of_mem_close hterm with hterm | ⟨place, fields', branches, hterm, hfollows⟩
    · rw [List.getElem?_map] at hterm
      obtain ⟨a, ha, hterm⟩ := Option.map_eq_some_iff.mp hterm
      rcases a.standsFor_term with ⟨c, hc, hstands⟩ | ⟨fields', hother⟩
      · rw [hterm] at hstands
        obtain ⟨rfl, -, htruth⟩ := hstands
        refine ⟨a, ha, fun d => ?_⟩
        rw [hc]
        exact htruth d
      · cases hterm.symm.trans hother
    · rw [List.getElem?_map] at hterm
      obtain ⟨a, ha, hterm⟩ := Option.map_eq_some_iff.mp hterm
      rcases a.standsFor_term with ⟨c, hc, hstands⟩ | ⟨fields', hother⟩
      · rw [hterm] at hstands
        obtain ⟨g, parts, rfl, htruth⟩ := hstands
        obtain ⟨_, _, _, _, hkey, htest⟩ := Condition.truth_of_ofEqualities hfollows
        cases hkey
        refine ⟨a, ha, fun d => ?_⟩
        rw [hc, htest]
        exact htruth d
      · cases hterm.symm.trans hother

end DocSearch
