import DocSearch.Proofs.Query.Meaning

/-!
# Conditions with nothing in parentheses

A text that is looked for in no field leaves nothing of its condition but the parentheses.
No request asks for that, but a predicate can be built that does.  The text of a condition
that holds such parentheses has tokens like any other, and no reader gets past them.

So a compiled predicate restricts nothing, or is tight, or is hollow, and the condition of
a hollow one cannot be read wherever it stands.

## Main definitions

* `Sql.Spells` — the tokens that stand in a row in a text.
* `Condition.Hollow` — conditions that hold parentheses with nothing in them.

## Main results

* `Sql.foldlM_step_eq_none` — no reader gets past them.
* `Condition.Hollow.spells` — they stand in the text of a hollow condition.
* `Predicate.compile_tight_or_hollow` — **what a predicate compiles to**.
-/

namespace DocSearch

namespace Sql

/-! ### Tokens in a row -/

/-- A text has tokens, and these stand in a row among them. -/
def Spells (us : List Token) (f : Fragment) : Prop := ∃ ts, tokenize f.sql = some ts ∧ us <:+: ts

variable {us : List Token} {f g : Fragment}

theorem Shows.spells {is : List Item} (hf : Shows f is) : Spells [] f := by
  obtain ⟨ts, hts, -⟩ := hf
  exact ⟨ts, hts, List.nil_infix⟩

theorem Spells.sql_ne (hf : Spells us f) (hne : us ≠ []) : f.sql ≠ "" := by
  obtain ⟨ts, hts, hrow⟩ := hf
  intro h
  rw [h] at hts
  obtain rfl : [] = ts := Option.some.inj hts
  exact hne (List.infix_nil.mp hrow)

theorem Spells.parenthesized (hf : Spells us f) : Spells us f.parenthesized := by
  obtain ⟨ts, hts, hrow⟩ := hf
  refine ⟨_, tokenize_of_gap (scan_parenthesized hts), hrow.trans ?_⟩
  exact ⟨[.opening], [.closing], rfl⟩

theorem Spells.negated (hf : Spells us f) : Spells us f.negated := by
  obtain ⟨ts, hts, hrow⟩ := hf.parenthesized
  have hnot : scan .gap "NOT ".toList = ([.word "NOT"], .gap) := by rfl
  have htext : f.negated.sql = "NOT " ++ f.parenthesized.sql := by
    have hsplit : "NOT (" = "NOT " ++ "(" := rfl
    rw [Fragment.negated, Fragment.parenthesized, hsplit, String.append_assoc, String.append_assoc,
      String.append_assoc]
  exact ⟨_, htext ▸ tokenize_append_of_gap hnot hts, hrow.trans (List.suffix_append _ _).isInfix⟩

/-! ### Joined texts -/

section Joined

variable {separator w : String} (hbreak : startsWithBreak separator = true)
  (hscan : scan .gap separator.toList = ([.word w], .gap))

include hbreak hscan

theorem tokenize_joined {ts rest : List Token} (hf : tokenize f.sql = some ts)
    (hg : tokenize g.sql = some rest) :
    tokenize (f.push separator ++ g).sql = some (ts ++ .word w :: rest) := by
  have hne : separator ≠ "" := by
    rintro rfl
    simp at hscan
  rw [Fragment.push_append]
  exact tokenize_append hf (tokenize_append_of_gap hscan hg) (startsWithBreak_append hbreak hne _)

/-- Texts that are joined are found in what they are joined to. -/
theorem spells_chain (us : List Token) {fs : List Fragment} (hfs : ∀ f ∈ fs, Spells [] f) :
    Spells [] (Fragment.chain separator fs) ∧
      ∀ f ∈ fs, Spells us f → Spells us (Fragment.chain separator fs) := by
  induction fs with
  | nil => exact ⟨⟨[], rfl, List.nil_infix⟩, by simp⟩
  | cons f fs ih =>
    cases fs with
    | nil => exact ⟨hfs f (by simp), by simp [Fragment.chain]⟩
    | cons g fs =>
      obtain ⟨ts, hts, -⟩ := hfs f (by simp)
      obtain ⟨⟨rest, hrest, -⟩, hin⟩ := ih fun x hx => hfs x (List.mem_cons_of_mem f hx)
      have hjoined := tokenize_joined hbreak hscan hts hrest
      refine ⟨⟨_, hjoined, List.nil_infix⟩, fun x hx hspells => ?_⟩
      rcases List.mem_cons.mp hx with rfl | hx
      · obtain ⟨ts', hts', hrow⟩ := hspells
        obtain rfl := Option.some.inj (hts.symm.trans hts')
        exact ⟨_, hjoined, hrow.trans (List.prefix_append _ _).isInfix⟩
      · obtain ⟨rest', hrest', hrow⟩ := hin x hx hspells
        obtain rfl := Option.some.inj (hrest.symm.trans hrest')
        exact ⟨_, hjoined, hrow.trans ⟨ts ++ [.word w], [], by simp⟩⟩

/-- Those without text are left out. -/
theorem spells_join (us : List Token) {fs : List Fragment} (hfs : ∀ f ∈ fs, Spells [] f) :
    Spells [] (Fragment.join separator fs) ∧
      ∀ f ∈ fs, us ≠ [] → Spells us f → Spells us (Fragment.join separator fs) := by
  have hkept := spells_chain hbreak hscan us
    fun f (hf : f ∈ fs.filter (!·.isEmpty)) => hfs f (List.mem_filter.mp hf).1
  refine ⟨hkept.1, fun f hf hne hspells => hkept.2 f (List.mem_filter.mpr ⟨hf, ?_⟩) hspells⟩
  have hsql := hspells.sql_ne hne
  simpa [Fragment.isEmpty] using hsql

end Joined

/-! ### Nothing in parentheses -/

/-- Parentheses with nothing in them. -/
def emptyGroup : List Token := [.opening, .closing]

/-- **No reader gets past parentheses with nothing in them.** -/
theorem foldlM_step_eq_none {ts : List Token} (h : emptyGroup <:+: ts) (r : Reader) :
    ts.foldlM Reader.step r = none := by
  obtain ⟨before, behind, rfl⟩ := h
  have hgroup : readGroup [] = none := by rfl
  have hempty : ∀ r : Reader, emptyGroup.foldlM Reader.step r = none := by
    intro r
    simp [emptyGroup, Reader.step, hgroup]
  rw [List.foldlM_append, List.foldlM_append]
  cases before.foldlM Reader.step r with
  | none => rfl
  | some r' => simp [hempty]

theorem read_eq_none_of_spells (h : Spells emptyGroup f) : Expr.read f = none := by
  obtain ⟨ts, hts, hrow⟩ := h
  simp [Expr.read, hts, foldlM_step_eq_none hrow]

end Sql

open Sql

/-! ### Conditions -/

/-- The text of a test has tokens. -/
theorem Test.spells (d : Dialect) (t : Test) : Spells [] (t.render d) := by
  by_cases ht : t.IsReadable
  · obtain ⟨is, hshow, -⟩ := t.requires_render d ht
    exact hshow.spells
  · cases t with
    | among field values =>
      obtain rfl : values = [] := by simpa [IsReadable] using ht
      obtain ⟨is, ⟨ts, hts, -⟩, -⟩ := d.denotes_fieldText field
      have hlist : tokenize (" IN (" ++ placeholders 0 ++ ")") =
          some [.word "IN", .opening, .closing] := by rfl
      have htext : ((Test.among field []).render d).sql =
          d.fieldText field ++ (" IN (" ++ placeholders 0 ++ ")") := by
        rw [render, List.length_nil, String.append_assoc, String.append_assoc, String.append_assoc]
      exact ⟨_, htext ▸ tokenize_append hts hlist (by rfl), List.nil_infix⟩
    | _ => exact absurd trivial ht

namespace Condition

variable {d : Dialect}

mutual

/-- The text of a condition has tokens. -/
theorem spells (d : Dialect) : ∀ c : Condition, Spells [] (c.render d)
  | .test t => t.spells d
  | .never => by
    obtain ⟨⟨is, hshow, -⟩, -⟩ := @readsAs_never d
    exact hshow.spells
  | .all cs => (spells_join (by rfl) (by rfl) [] (spells_of_mem d cs)).1
  | .any cs => (spells_join (by rfl) (by rfl) [] (spells_of_mem d cs)).1
  | .group c => (spells d c).parenthesized
  | .not c => (spells d c).negated

theorem spells_of_mem (d : Dialect) : ∀ cs : List Condition, ∀ f ∈ renderList d cs, Spells [] f
  | [], f, hf => by cases hf
  | c :: cs, f, hf => by
    rcases List.mem_cons.mp hf with rfl | hf
    · exact spells d c
    · exact spells_of_mem d cs f hf

end

/-- A condition that holds parentheses with nothing in them. -/
inductive Hollow : Condition → Prop where
  | empty : Hollow (.group (.any []))
  | all {c : Condition} {cs : List Condition} (hmem : c ∈ cs) (hc : Hollow c) : Hollow (.all cs)
  | any {c : Condition} {cs : List Condition} (hmem : c ∈ cs) (hc : Hollow c) : Hollow (.any cs)
  | group {c : Condition} (hc : Hollow c) : Hollow (.group c)
  | not {c : Condition} (hc : Hollow c) : Hollow (.not c)

/-- **The text of a hollow condition holds parentheses with nothing in them.** -/
theorem Hollow.spells {c : Condition} (hc : Hollow c) : Spells emptyGroup (c.render d) := by
  have hne : emptyGroup ≠ [] := by simp [emptyGroup]
  induction hc with
  | empty =>
    rw [render, render, renderList]
    exact ⟨emptyGroup, by rfl, List.infix_rfl⟩
  | all hmem _ ih =>
    have hrender := renderList_eq_map d _ ▸ List.mem_map_of_mem hmem
    exact (spells_join (by rfl) (by rfl) _ (spells_of_mem d _)).2 _ hrender hne ih
  | any hmem _ ih =>
    have hrender := renderList_eq_map d _ ▸ List.mem_map_of_mem hmem
    exact (spells_join (by rfl) (by rfl) _ (spells_of_mem d _)).2 _ hrender hne ih
  | group _ ih => exact ih.parenthesized
  | not _ ih => exact ih.negated

/-! ### Conditions that may restrict nothing -/

/-- A condition that may restrict nothing is tight or hollow. -/
def TightOrHollow? (c : Option Condition) : Prop := Tight? c ∨ ∃ x, c = some x ∧ Hollow x

/-- Some of several conditions are hollow, or all of them are tight. -/
theorem forall_tight?_or_exists_hollow {cs : List (Option Condition)}
    (hcs : ∀ c ∈ cs, TightOrHollow? c) :
    (∀ c ∈ cs, Tight? c) ∨ ∃ x, some x ∈ cs ∧ Hollow x := by
  by_cases htight : ∀ c ∈ cs, Tight? c
  · exact .inl htight
  · obtain ⟨c, hnot⟩ := Classical.not_forall.mp htight
    obtain ⟨hc, hnot⟩ := Classical.not_imp.mp hnot
    obtain ⟨x, rfl, hx⟩ := (hcs c hc).resolve_left hnot
    exact .inr ⟨x, hc, hx⟩

theorem tightOrHollow?_all? {cs : List (Option Condition)} (hcs : ∀ c ∈ cs, TightOrHollow? c) :
    TightOrHollow? (all? cs) := by
  rcases forall_tight?_or_exists_hollow hcs with htight | ⟨x, hmem, hx⟩
  · exact .inl (tight?_all? htight)
  · have hx' : x ∈ cs.filterMap id := List.mem_filterMap.mpr ⟨_, hmem, rfl⟩
    rw [all?]
    cases h : cs.filterMap id with
    | nil =>
      rw [h] at hx'
      cases hx'
    | cons c ds => exact .inr ⟨_, rfl, .all (h ▸ hx') hx⟩

theorem tightOrHollow?_group {c : Option Condition} (hc : TightOrHollow? c) :
    TightOrHollow? (c.map .group) := by
  rcases hc with htight | ⟨x, rfl, hx⟩
  · exact .inl (tight?_group htight)
  · exact .inr ⟨_, rfl, .group hx⟩

theorem tightOrHollow?_excluded {cs : List (Option Condition)}
    (hcs : ∀ c ∈ cs, TightOrHollow? c) :
    TightOrHollow? (if cs.isEmpty then none else if cs.any (·.isNone) then some .never
      else (any? cs).map .not) := by
  rcases forall_tight?_or_exists_hollow hcs with htight | ⟨x, hmem, hx⟩
  · exact .inl (tight?_excluded htight)
  · have hne : cs ≠ [] := List.ne_nil_of_mem hmem
    rw [if_neg (c := cs.isEmpty) (by simpa using hne)]
    rcases any_isNone_or_eq_map_some cs with hnone | ⟨ms, rfl⟩
    · rw [if_pos hnone]
      exact .inl (tight?_some .never)
    · have hms : x ∈ ms := by simpa using hmem
      rw [any_isNone_map_some, any?_map_some (List.ne_nil_of_mem hms)]
      exact .inr ⟨_, rfl, .not (.any hms hx)⟩

theorem tightOrHollow?_optional {cs : List (Option Condition)}
    (hcs : ∀ c ∈ cs, TightOrHollow? c) :
    TightOrHollow? (if cs.any (·.isNone) then none else (any? cs).map .group) := by
  rcases forall_tight?_or_exists_hollow hcs with htight | ⟨x, hmem, hx⟩
  · exact .inl (tight?_optional htight)
  · rcases any_isNone_or_eq_map_some cs with hnone | ⟨ms, rfl⟩
    · rw [if_pos hnone]
      exact .inl tight?_none
    · have hms : x ∈ ms := by simpa using hmem
      rw [any_isNone_map_some, any?_map_some (List.ne_nil_of_mem hms)]
      exact .inr ⟨_, rfl, .group (.any hms hx)⟩

theorem tightOrHollow?_groupConditions {groups : BoolClauses (Option Condition)}
    (hmust : ∀ c ∈ groups.must, TightOrHollow? c) (hfilter : ∀ c ∈ groups.filter, TightOrHollow? c)
    (hmustNot : ∀ c ∈ groups.mustNot, TightOrHollow? c)
    (hshould : ∀ c ∈ groups.should, TightOrHollow? c) :
    TightOrHollow? (groupConditions groups) := by
  rw [groupConditions]
  refine tightOrHollow?_all? ?_
  simp only [List.mem_cons, List.not_mem_nil, or_false]
  rintro c (rfl | rfl | rfl | rfl)
  · exact tightOrHollow?_group (tightOrHollow?_all? hmust)
  · exact tightOrHollow?_group (tightOrHollow?_all? hfilter)
  · exact tightOrHollow?_excluded hmustNot
  · exact tightOrHollow?_optional hshould

/-- A text that is looked for in no field. -/
theorem tightOrHollow?_text (q : TextQuery) (fields : List String) :
    TightOrHollow? (q.compile fields) := by
  by_cases hne : fields = []
  · subst hne
    rw [TextQuery.compile]
    split
    · cases q.zeroTerms
      · exact .inl (tight?_some .never)
      · exact .inl tight?_none
    · split
      · split
        · exact .inl tight?_none
        · exact .inr ⟨_, rfl, .empty⟩
      · next hempty => exact absurd rfl hempty
  · exact .inl (tight?_text q hne)

end Condition

/-! ### Compiled predicates -/

namespace Predicate

open Condition Steps

mutual

/-- **What a predicate compiles to**: nothing, a tight condition, or a hollow one. -/
theorem compile_tight_or_hollow :
    ∀ {p : Predicate} {c : Option Condition}, p.compile = .ok c → TightOrHollow? c
  | .multiField fields query, c, h => by
    cases h
    exact tightOrHollow?_text query _
  | .bool ⟨must, filter, mustNot, should, raw⟩, c, h => by
    simp only [compile, bind_eq_ok, pure_eq_ok] at h
    obtain ⟨must', hmust, filter', hfilter, mustNot', hmustNot, -, -, should', hshould, rfl⟩ := h
    exact tightOrHollow?_groupConditions (compileList_tight_or_hollow hmust)
      (compileList_tight_or_hollow hfilter) (compileList_tight_or_hollow hmustNot)
      (compileList_tight_or_hollow hshould)
  | .range field bounds, c, h => by
    by_cases hne : bounds = []
    · cases h
      rw [hne]
      exact .inl tight?_none
    · exact .inl (compile_sound (p := .range field bounds) hne h).1
  | .matchAll, c, h | .term _ _ _, c, h | .docType _ _, c, h | .ids _ _, c, h
  | .fullText _ _ _, c, h | .terms _ _, c, h | .present _, c, h | .startsWith _ _, c, h => by
    refine .inl (compile_sound ?_ h).1
    trivial

theorem compileList_tight_or_hollow : ∀ {ps : List Predicate} {cs : List (Option Condition)},
    compileList ps = .ok cs → ∀ c ∈ cs, TightOrHollow? c
  | [], cs, h => by
    cases h
    simp
  | p :: ps, cs, h => by
    simp only [compileList, bind_eq_ok, pure_eq_ok] at h
    obtain ⟨c, hc, ds, hds, rfl⟩ := h
    exact List.forall_mem_cons.mpr ⟨compile_tight_or_hollow hc, compileList_tight_or_hollow hds⟩

end

end Predicate

end DocSearch
