import DocSearch.Proofs.Steps
import DocSearch.Query.Compile

/-!
# Values stay out of the text of a query

The text of a condition is chosen by the kinds of its tests, by their fields and by how
many values they bind.  The values themselves are bound and never written into it.  So
two queries that differ in their values only, where a bound of a range stays a number
or stays none and a text keeps the number of its words, either fail alike or have the
same text with as many values.

## Main definitions

* `Predicate.SameShape` — two predicates differ in their values only.
* `Condition.blank` — a condition with its values taken out.
* `Fragment.shape` — the text of a fragment, and how many values it binds.

## Main results

* `Condition.shape_render_blank` — the text of a condition is that of its blank.
* `Predicate.blank_compile` — predicates of one shape have conditions with one blank.
* `Predicate.shape_compile` — so they have one text.
-/

namespace DocSearch

open Sql

/-! ### Texts -/

namespace Sql.Fragment

/-- The text of a fragment, and how many values it binds. -/
def shape (f : Fragment) : String × Nat := (f.sql, f.params.length)

variable {f f' g g' : Fragment}

theorem shape_eq_iff : f.shape = g.shape ↔ f.sql = g.sql ∧ f.params.length = g.params.length := by
  rw [shape, shape, Prod.mk.injEq]

theorem shape_append (hf : f.shape = f'.shape) (hg : g.shape = g'.shape) :
    (f ++ g).shape = (f' ++ g').shape := by
  rw [shape_eq_iff] at hf hg ⊢
  rw [sql_append, sql_append, params_append, params_append, List.length_append, List.length_append,
    hf.1, hf.2, hg.1, hg.2]
  exact ⟨rfl, rfl⟩

theorem shape_push (hf : f.shape = g.shape) (text : String) :
    (f.push text).shape = (g.push text).shape := by
  rw [shape_eq_iff] at hf ⊢
  exact ⟨by rw [push, push, hf.1], hf.2⟩

theorem shape_parenthesized (hf : f.shape = g.shape) :
    f.parenthesized.shape = g.parenthesized.shape := by
  rw [shape_eq_iff] at hf ⊢
  exact ⟨by rw [parenthesized, parenthesized, hf.1], hf.2⟩

theorem shape_negated (hf : f.shape = g.shape) : f.negated.shape = g.negated.shape := by
  rw [shape_eq_iff] at hf ⊢
  exact ⟨by rw [negated, negated, hf.1], hf.2⟩

/-- Fragments without a text are left out alike. -/
theorem shapes_filter {fs gs : List Fragment} (h : fs.map shape = gs.map shape) :
    (fs.filter (!·.isEmpty)).map shape = (gs.filter (!·.isEmpty)).map shape := by
  have hfilter : ∀ hs : List Fragment, (hs.filter (!·.isEmpty)).map shape =
      (hs.map shape).filter fun s => !s.1.isEmpty := by
    intro hs
    rw [List.filter_map]
    rfl
  rw [hfilter, hfilter, h]

theorem shape_chain (separator : String) {fs gs : List Fragment}
    (h : fs.map shape = gs.map shape) : (chain separator fs).shape = (chain separator gs).shape := by
  induction fs generalizing gs with
  | nil =>
    rw [List.map_nil, eq_comm, List.map_eq_nil_iff] at h
    rw [h]
  | cons f fs ih =>
    cases gs with
    | nil => cases h
    | cons g gs =>
      rw [List.map_cons, List.map_cons, List.cons.injEq] at h
      obtain ⟨hfg, hrest⟩ := h
      cases fs with
      | nil =>
        rw [List.map_nil, eq_comm, List.map_eq_nil_iff] at hrest
        rw [hrest]
        exact hfg
      | cons f' fs =>
        cases gs with
        | nil => cases hrest
        | cons g' gs => exact shape_append (shape_push hfg separator) (ih hrest)

theorem shape_join (separator : String) {fs gs : List Fragment}
    (h : fs.map shape = gs.map shape) : (join separator fs).shape = (join separator gs).shape :=
  shape_chain separator (shapes_filter h)

end Sql.Fragment

open Sql.Fragment

/-! ### Conditions without their values -/

/-- A test with its values taken out. -/
def Test.blank : Test → Test
  | equals field _ => equals field .null
  | among field values => among field (List.replicate values.length .null)
  | like field _ => like field ""
  | compareText field op _ => compareText field op .null
  | compareNumber field op _ => compareNumber field op .null
  | present field => present field

theorem Test.shape_render_blank (d : Dialect) (t : Test) :
    (t.blank.render d).shape = (t.render d).shape := by
  rw [shape_eq_iff]
  cases t with
  | among field values =>
    constructor
    · rw [blank, render, render, List.length_replicate]
    · exact List.length_replicate
  | equals field value => exact ⟨rfl, rfl⟩
  | like field pattern => exact ⟨rfl, rfl⟩
  | compareText field op value => exact ⟨rfl, rfl⟩
  | compareNumber field op value => exact ⟨rfl, rfl⟩
  | present field => exact ⟨rfl, rfl⟩

namespace Condition

mutual

/-- A condition with its values taken out. -/
def blank : Condition → Condition
  | .test t => .test t.blank
  | .never => .never
  | .all parts => .all (blankList parts)
  | .any parts => .any (blankList parts)
  | .group c => .group (blank c)
  | .not c => .not (blank c)

/-- Several conditions with their values taken out. -/
def blankList : List Condition → List Condition
  | [] => []
  | c :: cs => blank c :: blankList cs

end

theorem blankList_eq_map (cs : List Condition) : blankList cs = cs.map blank := by
  induction cs with
  | nil => rfl
  | cons c cs ih => rw [blankList, ih, List.map_cons]

mutual

/-- **The text of a condition does not depend on its values**, and neither does their
number. -/
theorem shape_render_blank (d : Dialect) : ∀ c : Condition,
    (c.blank.render d).shape = (c.render d).shape
  | .test t => t.shape_render_blank d
  | .never => rfl
  | .all parts => shape_join " AND " (shapes_renderList_blank d parts)
  | .any parts => shape_join " OR " (shapes_renderList_blank d parts)
  | .group c => shape_parenthesized (shape_render_blank d c)
  | .not c => shape_negated (shape_render_blank d c)

theorem shapes_renderList_blank (d : Dialect) : ∀ cs : List Condition,
    (renderList d (blankList cs)).map Fragment.shape = (renderList d cs).map Fragment.shape
  | [] => rfl
  | c :: cs => by
    rw [blankList, renderList, renderList, List.map_cons, List.map_cons, shape_render_blank d c,
      shapes_renderList_blank d cs]

end

/-- The blank of a condition that may restrict nothing. -/
def blank? (c : Option Condition) : Option Condition := c.map blank

theorem shape_render?_blank (d : Dialect) (c : Option Condition) :
    (render? d (blank? c)).shape = (render? d c).shape := by
  cases c with
  | none => rfl
  | some c => exact shape_render_blank d c

/-! ### Combinations -/

theorem filterMap_blank? (cs : List (Option Condition)) :
    (cs.map blank?).filterMap id = (cs.filterMap id).map blank := by
  rw [List.filterMap_map, List.map_filterMap]
  rfl

theorem blank?_all? (cs : List (Option Condition)) : blank? (all? cs) = all? (cs.map blank?) := by
  rw [all?, all?, filterMap_blank?]
  cases cs.filterMap id with
  | nil => rfl
  | cons c cs =>
    show some (blank (.all (c :: cs))) = _
    rw [blank, blankList_eq_map]
    rfl

theorem blank?_any? (cs : List (Option Condition)) : blank? (any? cs) = any? (cs.map blank?) := by
  rw [any?, any?, filterMap_blank?]
  cases cs.filterMap id with
  | nil => rfl
  | cons c cs =>
    show some (blank (.any (c :: cs))) = _
    rw [blank, blankList_eq_map]
    rfl

theorem blank?_group (c : Option Condition) : blank? (c.map .group) = (blank? c).map .group := by
  cases c <;> rfl

theorem blank?_not (c : Option Condition) : blank? (c.map .not) = (blank? c).map .not := by
  cases c <;> rfl

theorem any_isNone_map_blank? (cs : List (Option Condition)) :
    (cs.map blank?).any (·.isNone) = cs.any (·.isNone) := by
  rw [List.any_map]
  congr 1
  funext c
  cases c <;> rfl

end Condition

open Condition

/-- The groups of a boolean query are combined alike whatever the values are. -/
theorem blank?_groupConditions (must filter mustNot should : List (Option Condition))
    (threshold : Option String) :
    blank? (groupConditions ⟨must, filter, mustNot, should, threshold⟩) =
      groupConditions ⟨must.map blank?, filter.map blank?, mustNot.map blank?,
        should.map blank?, threshold⟩ := by
  have hnot : ∀ cs : List (Option Condition), blank? ((any? cs).map .not) =
      (any? (cs.map blank?)).map .not := fun cs => by rw [blank?_not, blank?_any?]
  have hgroup : ∀ cs : List (Option Condition), blank? ((any? cs).map .group) =
      (any? (cs.map blank?)).map .group := fun cs => by rw [blank?_group, blank?_any?]
  have hnone : blank? none = none := rfl
  have hnever : blank? (some .never) = some .never := rfl
  simp only [groupConditions, blank?_all?, List.map_cons, List.map_nil, blank?_group,
    List.isEmpty_map, any_isNone_map_blank?, apply_ite blank?, hnot, hgroup, hnone, hnever]

theorem blank_grouped {combine : List Condition → Condition}
    (hcombine : ∀ cs, (combine cs).blank = combine (cs.map blank)) (cs : List Condition) :
    (grouped combine cs).blank = grouped combine (cs.map blank) := by
  match cs with
  | [] => exact congrArg group (hcombine [])
  | [c] => exact hcombine [c]
  | c :: c' :: cs => exact congrArg group (hcombine (c :: c' :: cs))

theorem blank_all (cs : List Condition) : (Condition.all cs).blank = .all (cs.map blank) := by
  rw [blank, blankList_eq_map]

theorem blank_any (cs : List Condition) : (Condition.any cs).blank = .any (cs.map blank) := by
  rw [blank, blankList_eq_map]

theorem Operator.blank_combine (o : Operator) (cs : List Condition) :
    (o.combine cs).blank = o.combine (cs.map blank) := by
  cases o
  · exact blank_all cs
  · exact blank_any cs

/-! ### Shapes of predicates -/

/-- Whether a bound is a number. -/
def Scalar.isNumber : Scalar → Bool
  | number _ => true
  | _ => false

/-- Two texts are looked for alike: in the same way, and with as many words, or as a
whole that is blank in both or in neither. -/
def TextQuery.SameShape (q r : TextQuery) : Prop :=
  q.operator = r.operator ∧ q.zeroTerms = r.zeroTerms ∧ q.mode = r.mode ∧
    match q.mode with
    | .words => (Text.words q.text).length = (Text.words r.text).length
    | .phrase | .phrasePrefix => Text.isAllBlank q.text = Text.isAllBlank r.text

namespace Predicate

mutual

/-- Two predicates differ in their values only.  Lists of values are equally long, a
bound is a number in both or in neither, and texts are looked for alike. -/
def SameShape : Predicate → Predicate → Prop
  | .matchAll, .matchAll => True
  | .term field _ _, .term field' _ _ => field = field'
  | .docType _ _, .docType _ _ => True
  | .ids types values, .ids types' values' =>
    types.length = types'.length ∧ values.length = values'.length
  | .fullText field query _, .fullText field' query' _ =>
    field = field' ∧ query.SameShape query'
  | .multiField fields query, .multiField fields' query' =>
    fields.map (·.name) = fields'.map (·.name) ∧ query.SameShape query'
  | .bool ⟨must, filter, mustNot, should, threshold⟩,
      .bool ⟨must', filter', mustNot', should', threshold'⟩ =>
    AllSameShape must must' ∧ AllSameShape filter filter' ∧ AllSameShape mustNot mustNot' ∧
      AllSameShape should should' ∧ threshold = threshold'
  | .terms field values, .terms field' values' =>
    field = field' ∧ values.length = values'.length
  | .range field bounds, .range field' bounds' =>
    field = field' ∧
      bounds.map (fun b => (b.1, b.2.isNumber)) = bounds'.map fun b => (b.1, b.2.isNumber)
  | .present field, .present field' => field = field'
  | .startsWith field _, .startsWith field' _ => field = field'
  | _, _ => False

/-- The predicates of two lists differ, one by one, in their values only. -/
def AllSameShape : List Predicate → List Predicate → Prop
  | [], [] => True
  | p :: ps, q :: qs => SameShape p q ∧ AllSameShape ps qs
  | _, _ => False

end

theorem AllSameShape.length_eq {ps qs : List Predicate} (h : AllSameShape ps qs) :
    ps.length = qs.length := by
  induction ps generalizing qs with
  | nil =>
    cases qs with
    | nil => rfl
    | cons q qs => exact h.elim
  | cons p ps ih =>
    cases qs with
    | nil => exact h.elim
    | cons q qs => rw [List.length_cons, List.length_cons, ih h.2]

end Predicate

/-! ### Leaves -/

theorem isEmpty_eq_of_length_eq {α β : Type} {as : List α} {bs : List β}
    (h : as.length = bs.length) : as.isEmpty = bs.isEmpty := by
  rw [Bool.eq_iff_iff, List.isEmpty_iff_length_eq_zero, List.isEmpty_iff_length_eq_zero, h]

theorem TextQuery.length_patterns {q r : TextQuery} (h : q.SameShape r) :
    q.patterns.length = r.patterns.length := by
  obtain ⟨-, -, hmode, htext⟩ := h
  rw [patterns, patterns, ← hmode]
  cases hq : q.mode with
  | words =>
    rw [hq] at htext
    rw [List.length_map, List.length_map]
    exact htext
  | phrase =>
    rw [hq] at htext
    simp only at htext ⊢
    rw [htext]
    split <;> rfl
  | phrasePrefix =>
    rw [hq] at htext
    simp only at htext ⊢
    rw [htext]
    split <;> rfl

/-- What a pattern asks of some fields, without the pattern. -/
theorem blank_anyField (fields : List String) (pattern : String) :
    (grouped .any (fields.map fun field => .test (.like field pattern))).blank =
      grouped .any (fields.map fun field => .test (.like field "")) := by
  rw [blank_grouped blank_any, List.map_map]
  rfl

theorem TextQuery.blank_compile {q r : TextQuery} (h : q.SameShape r) (fields : List String) :
    blank? (q.compile fields) = blank? (r.compile fields) := by
  have hlength := length_patterns h
  obtain ⟨hoperator, hzero, -, -⟩ := h
  -- each pattern becomes the same blank, so only their number counts
  have hparts : ∀ s : TextQuery, (s.patterns.map fun pattern =>
      grouped .any (fields.map fun field => .test (.like field pattern))).map blank =
        List.replicate s.patterns.length
          (grouped .any (fields.map fun field => .test (.like field ""))) := by
    intro s
    rw [List.map_map, ← List.map_const']
    exact List.map_congr_left fun pattern _ => blank_anyField fields pattern
  rw [compile, compile, isEmpty_eq_of_length_eq hlength, hzero, hlength]
  split
  · rfl
  split
  · rfl
  · show some (grouped q.operator.combine _).blank = some (grouped r.operator.combine _).blank
    rw [blank_grouped q.operator.blank_combine, blank_grouped r.operator.blank_combine, hparts,
      hparts, hlength, hoperator]

theorem blank_boundTest (field : String) {b b' : RangeOp × Scalar} (hop : b.1 = b'.1)
    (hnumber : b.2.isNumber = b'.2.isNumber) :
    (boundTest field b).blank = (boundTest field b').blank := by
  obtain ⟨op, v⟩ := b
  obtain ⟨op', v'⟩ := b'
  obtain rfl : op = op' := hop
  cases v with
  | number n =>
    cases v' with
    | number n' => rfl
    | text s => cases hnumber
    | bool b => cases hnumber
  | text s =>
    cases v' with
    | number n' => cases hnumber
    | text s' => rfl
    | bool b => rfl
  | bool b =>
    cases v' with
    | number n' => cases hnumber
    | text s' => rfl
    | bool b' => rfl

theorem blank_range (field : String) {bounds bounds' : List (RangeOp × Scalar)}
    (h : bounds.map (fun b => (b.1, b.2.isNumber)) = bounds'.map fun b => (b.1, b.2.isNumber)) :
    (bounds.map fun b => Condition.test (boundTest field b)).map blank =
      (bounds'.map fun b => Condition.test (boundTest field b)).map blank := by
  induction bounds generalizing bounds' with
  | nil =>
    rw [List.map_nil, eq_comm, List.map_eq_nil_iff] at h
    rw [h]
  | cons b bounds ih =>
    cases bounds' with
    | nil => cases h
    | cons b' bounds' =>
      rw [List.map_cons, List.map_cons, List.cons.injEq, Prod.mk.injEq] at h
      obtain ⟨⟨hop, hnumber⟩, hrest⟩ := h
      simp only [List.map_cons, ih hrest, blank, blank_boundTest field hop hnumber]

/-- A list of values leaves nothing but its length. -/
theorem blank_among (field : String) {values values' : List Value}
    (h : values.length = values'.length) :
    (Test.among field values).blank = (Test.among field values').blank := by
  rw [Test.blank, Test.blank, h]

theorem blank_compileIds {types types' values values' : List String}
    (htypes : types.length = types'.length) (hvalues : values.length = values'.length) :
    (compileIds types values).blank = (compileIds types' values').blank := by
  have hamong : ∀ (field : String) {items items' : List String}, items.length = items'.length →
      (Condition.group (.test (.among field (items.map .text)))).blank =
        (Condition.group (.test (.among field (items'.map .text)))).blank := by
    intro field items items' h
    have hlength : (items.map Value.text).length = (items'.map Value.text).length := by
      rw [List.length_map, List.length_map, h]
    simp only [blank, blank_among field hlength]
  simp only [compileIds, isEmpty_eq_of_length_eq htypes, isEmpty_eq_of_length_eq hvalues]
  split
  · rfl
  · split
    · simp only [blank_all, List.map_cons, List.map_nil, hamong _ hvalues]
    · simp only [blank_all, List.map_cons, List.map_nil, hamong _ hvalues, hamong _ htypes]

/-! ### Compilation -/

namespace Predicate

/-- Results that differ in their values only lead to results that do. -/
theorem map_blank_bind {α β γ δ : Type} {x y : Except QueryError α} {blankOf : α → γ}
    {resultOf : β → δ} {f g : α → Except QueryError β} (hxy : x.map blankOf = y.map blankOf)
    (hfg : ∀ a b, blankOf a = blankOf b → (f a).map resultOf = (g b).map resultOf) :
    (x >>= f).map resultOf = (y >>= g).map resultOf := by
  cases x with
  | error e =>
    cases y with
    | error e' =>
      cases hxy
      rfl
    | ok b => cases hxy
  | ok a =>
    cases y with
    | error e' => cases hxy
    | ok b => exact hfg a b (Except.ok.inj hxy)

mutual

/-- **Predicates of one shape have conditions with one blank**, or fail alike. -/
theorem blank_compile : ∀ {p q : Predicate}, p.SameShape q →
    p.compile.map blank? = q.compile.map blank?
  | .matchAll, q, h => by
    cases q with
    | matchAll => rfl
    | _ => exact h.elim
  | .term field value _, q, h => by
    cases q with
    | term field' value' _ =>
      cases h
      rfl
    | _ => exact h.elim
  | .docType value _, q, h => by
    cases q with
    | docType value' _ => rfl
    | _ => exact h.elim
  | .ids types values, q, h => by
    cases q with
    | ids types' values' =>
      rw [compile, compile]
      exact congrArg (fun c => Except.ok (some c)) (blank_compileIds h.1 h.2)
    | _ => exact h.elim
  | .fullText field query _, q, h => by
    cases q with
    | fullText field' query' _ =>
      obtain ⟨rfl, hquery⟩ := h
      rw [compile, compile]
      exact congrArg Except.ok (TextQuery.blank_compile hquery _)
    | _ => exact h.elim
  | .multiField fields query, q, h => by
    cases q with
    | multiField fields' query' =>
      obtain ⟨hfields, hquery⟩ := h
      rw [compile, compile, hfields]
      exact congrArg Except.ok (TextQuery.blank_compile hquery _)
    | _ => exact h.elim
  | .bool ⟨must, filter, mustNot, should, threshold⟩, q, h => by
    cases q with
    | bool groups =>
      obtain ⟨must', filter', mustNot', should', threshold'⟩ := groups
      obtain ⟨hmust, hfilter, hmustNot, hshould, rfl⟩ := h
      rw [compile, compile, hshould.length_eq]
      refine map_blank_bind (blank_compileList hmust) fun must must' hmust => ?_
      refine map_blank_bind (blank_compileList hfilter) fun filter filter' hfilter => ?_
      refine map_blank_bind (blank_compileList hmustNot) fun mustNot mustNot' hmustNot => ?_
      -- the threshold is checked against equally many members
      refine map_blank_bind (rfl : Except.map id _ = Except.map id _) fun _ _ _ => ?_
      refine map_blank_bind (blank_compileList hshould) fun should should' hshould => ?_
      show Except.ok (blank? _) = Except.ok (blank? _)
      rw [blank?_groupConditions, blank?_groupConditions, hmust, hfilter, hmustNot, hshould]
    | _ => exact h.elim
  | .terms field values, q, h => by
    cases q with
    | terms field' values' =>
      obtain ⟨rfl, hvalues⟩ := h
      rw [compile, compile, isEmpty_eq_of_length_eq hvalues]
      split
      · rfl
      · have hlength : (values.map Scalar.toValue).length = (values'.map Scalar.toValue).length := by
          rw [List.length_map, List.length_map, hvalues]
        show Except.ok (some (Condition.test _)) = Except.ok (some (Condition.test _))
        rw [blank_among field hlength]
    | _ => exact h.elim
  | .range field bounds, q, h => by
    cases q with
    | range field' bounds' =>
      obtain ⟨rfl, hbounds⟩ := h
      have hlength : bounds.length = bounds'.length := by
        simpa only [List.length_map] using congrArg List.length hbounds
      rw [compile, compile, isEmpty_eq_of_length_eq hlength]
      split
      · rfl
      · show Except.ok (some (blank _)) = Except.ok (some (blank _))
        rw [blank_all, blank_all, blank_range field hbounds]
    | _ => exact h.elim
  | .present field, q, h => by
    cases q with
    | present field' =>
      cases h
      rfl
    | _ => exact h.elim
  | .startsWith field text, q, h => by
    cases q with
    | startsWith field' text' =>
      cases h
      rfl
    | _ => exact h.elim

theorem blank_compileList : ∀ {ps qs : List Predicate}, AllSameShape ps qs →
    (compileList ps).map (List.map blank?) = (compileList qs).map (List.map blank?)
  | [], qs, h => by
    cases qs with
    | nil => rfl
    | cons q qs => exact h.elim
  | p :: ps, qs, h => by
    cases qs with
    | nil => exact h.elim
    | cons q qs =>
      rw [compileList, compileList]
      refine map_blank_bind (blank_compile h.1) fun c c' hc => ?_
      refine map_blank_bind (blank_compileList h.2) fun cs cs' hcs => ?_
      show Except.ok (blank? c :: cs.map blank?) = Except.ok (blank? c' :: cs'.map blank?)
      rw [hc, hcs]

end

/-- **Values never reach the text.**  Two predicates that differ in their values only fail
with the same error, or are compiled to the same text with as many bound values, in
either dialect. -/
theorem shape_compile (d : Dialect) {p q : Predicate} (h : p.SameShape q) :
    p.compile.map (fun c => (Condition.render? d c).shape) =
      q.compile.map fun c => (Condition.render? d c).shape := by
  have hblank := blank_compile h
  cases hp : p.compile with
  | error e =>
    cases hq : q.compile with
    | error e' =>
      rw [hp, hq] at hblank
      cases hblank
      rfl
    | ok c' =>
      rw [hp, hq] at hblank
      cases hblank
  | ok c =>
    cases hq : q.compile with
    | error e' =>
      rw [hp, hq] at hblank
      cases hblank
    | ok c' =>
      rw [hp, hq] at hblank
      have hc : blank? c = blank? c' := Except.ok.inj hblank
      have hshape : (Condition.render? d c).shape = (Condition.render? d c').shape := by
        rw [← shape_render?_blank d c, ← shape_render?_blank d c', hc]
      exact congrArg Except.ok hshape

/-- Values that look like literals, placeholders and comments. -/
theorem shape_compile_quoted :
    let text (words : String) : TextQuery := ⟨words, .and, .none, .words⟩
    let p : Predicate := .bool ⟨[.term "a" (.text "x") none], [.range "n" [(.gte, .number (.int 1))]],
      [.multiField [⟨"b", none⟩, ⟨"c", none⟩] (text "one two")], [.ids ["t"] ["u"]], some "1"⟩
    let q : Predicate := .bool ⟨[.term "a" (.text "'?") none], [.range "n" [(.gte, .number (.int 7))]],
      [.multiField [⟨"b", none⟩, ⟨"c", none⟩] (text "%' --?")], [.ids ["'"] ["?"]], some "1"⟩
    p.SameShape q ∧
      p.compile.map (fun c => (Condition.render? .postgres c).shape) =
        q.compile.map fun c => (Condition.render? .postgres c).shape := by
  intro text p q
  have hwords : (text "one two").SameShape (text "%' --?") :=
    ⟨rfl, rfl, rfl, by decide +kernel⟩
  have h : p.SameShape q :=
    ⟨⟨rfl, trivial⟩, ⟨⟨rfl, rfl⟩, trivial⟩, ⟨⟨rfl, hwords⟩, trivial⟩, ⟨⟨rfl, rfl⟩, trivial⟩, rfl⟩
  exact ⟨h, shape_compile .postgres h⟩

end Predicate

end DocSearch
