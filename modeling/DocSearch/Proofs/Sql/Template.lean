import DocSearch.Sql.Condition

/-!
# One text for both dialects

The two dialects write the expressions of a field differently, and nothing else of a
condition.  A field is read as a value of the database, as text or as a number.  So the
text of a condition is a template, in which a field stands with the form in which it is
read, filled with the expressions of the dialect.  The values that it binds do not depend
on the dialect at all.

What has no text is left out of a conjunction or an alternative.  The expressions of fields
are never empty, so the same parts are left out in both dialects.

## Main definitions

* `FieldForm` — the forms in which a field is read, and `Dialect.expression`, its
  expression.
* `Template` — a text in which fields stand, and the values that it binds.
* `Template.fill` — the fragment of a template, once each field has an expression.
* `OneTemplate` — fragments, one for each dialect, that come of one template.

## Main results

* `Template.isEmpty_fill` — whether there is a text does not depend on the expressions.
* `Condition.oneTemplate_render` — **the texts of a condition come of one template.**
-/

namespace DocSearch

open Sql

/-! ### Templates -/

/-- The form in which a field is read. -/
inductive FieldForm where
  /-- As a value of the database. -/
  | plain
  /-- As text. -/
  | text
  /-- As a number. -/
  | number
  deriving DecidableEq, Repr

/-- The expression of a dialect for a field in some form. -/
def Dialect.expression (d : Dialect) : FieldForm → String → String
  | .plain, field => d.fieldValue field
  | .text, field => d.fieldText field
  | .number, field => d.numeric (d.fieldValue field)

/-- A piece of a template. -/
inductive Piece where
  /-- A text. -/
  | text (s : String)
  /-- A field in some form. -/
  | field (form : FieldForm) (name : String)
  deriving DecidableEq, Repr

/-- A text in which fields stand, and the values that it binds. -/
structure Template where
  /-- The text and the fields. -/
  pieces : List Piece
  /-- The values. -/
  params : List Value

/-- The text of a piece, given the expressions of the fields. -/
def Piece.fill (expression : FieldForm → String → String) : Piece → String
  | text s => s
  | field form name => expression form name

/-- Whether a piece has no text. -/
def Piece.isEmpty : Piece → Bool
  | text s => s.isEmpty
  | field _ _ => false

namespace Template

/-- The fragment of a template, given the expressions of the fields. -/
def fill (expression : FieldForm → String → String) (t : Template) : Fragment :=
  ⟨String.join (t.pieces.map (·.fill expression)), t.params⟩

/-- Whether a template has no text. -/
def isEmpty (t : Template) : Bool := t.pieces.all Piece.isEmpty

/-- One template behind the other. -/
def append (t u : Template) : Template := ⟨t.pieces ++ u.pieces, t.params ++ u.params⟩

/-- A template between two texts. -/
def between (before after : String) (t : Template) : Template :=
  ⟨.text before :: t.pieces ++ [.text after], t.params⟩

variable {expression : FieldForm → String → String}

theorem fill_append (t u : Template) :
    (t.append u).fill expression = t.fill expression ++ u.fill expression := by
  unfold fill append
  rw [List.map_append, String.join_append]
  rfl

theorem fill_between (before after : String) (t : Template) :
    (t.between before after).fill expression =
      ⟨before ++ (t.fill expression).sql ++ after, t.params⟩ := by
  simp [fill, between, Piece.fill, String.join_cons, String.join_append, String.append_assoc]

/-- **Whether there is a text does not depend on the expressions**, as long as none of them
is empty. -/
theorem isEmpty_fill (hexpression : ∀ form name, expression form name ≠ "") (t : Template) :
    (t.fill expression).isEmpty = t.isEmpty := by
  have hpieces : ∀ pieces : List Piece,
      (String.join (pieces.map (·.fill expression))).isEmpty = pieces.all Piece.isEmpty := by
    intro pieces
    induction pieces with
    | nil => rfl
    | cons piece pieces ih =>
      rw [List.all_cons, ← ih, Bool.eq_iff_iff, Bool.and_eq_true, List.map_cons, String.join_cons,
        String.isEmpty_iff, String.append_eq_empty_iff, String.isEmpty_iff]
      cases piece with
      | text s => simp [Piece.fill, Piece.isEmpty]
      | field form name => simp [Piece.fill, Piece.isEmpty, hexpression form name]
  exact hpieces t.pieces

end Template

/-! ### Expressions -/

theorem append_ne_empty {s : String} (hs : s ≠ "") (t : String) : s ++ t ≠ "" := by
  intro h
  exact hs (String.append_eq_empty_iff.mp h).1

/-- A column stands for itself, and anything else is read from the document. -/
theorem Dialect.getD_column?_ne_empty {s : String} (hs : s ≠ "") (field : String) :
    (column? field).getD s ≠ "" := by
  have hid : "id" ≠ "" := by decide
  have htype : "type" ≠ "" := by decide
  unfold column?
  split
  · exact hid
  · split
    · exact htype
    · exact hs

theorem Dialect.member_ne_empty (d : Dialect) (field : String) : d.member field ≠ "" := by
  have hdoc : "doc ->> " ≠ "" := by decide
  cases d with
  | sqlite => exact append_ne_empty hdoc _
  | postgres =>
    show (if field.toList.contains '.' then _ else _) ≠ ""
    split
    · exact append_ne_empty (s := "doc #>> ") (by decide) _
    · exact append_ne_empty hdoc _

theorem Dialect.memberText_ne_empty (d : Dialect) (field : String) : d.memberText field ≠ "" := by
  cases d with
  | sqlite => exact append_ne_empty (append_ne_empty (s := "sift_text(doc -> ") (by decide) _) _
  | postgres => exact member_ne_empty postgres field

/-- **No expression of a field is empty.** -/
theorem Dialect.expression_ne_empty (d : Dialect) (form : FieldForm) (field : String) :
    d.expression form field ≠ "" := by
  cases form with
  | plain => exact getD_column?_ne_empty (d.member_ne_empty field) field
  | text => exact getD_column?_ne_empty (d.memberText_ne_empty field) field
  | number =>
    cases d with
    | sqlite => exact append_ne_empty (append_ne_empty (s := "sift_numeric(") (by decide) _) _
    | postgres => exact append_ne_empty (append_ne_empty (s := "(") (by decide) _) _

/-! ### Fragments for each dialect -/

/-- Fragments, one for each dialect, that come of one template. -/
def OneTemplate (f : Dialect → Fragment) : Prop := ∃ t : Template, ∀ d, f d = t.fill d.expression

/-- Lists of fragments, one for each dialect, that come of one list of templates. -/
def OneTemplateEach (fs : Dialect → List Fragment) : Prop :=
  ∃ ts : List Template, ∀ d, fs d = ts.map (·.fill d.expression)

namespace OneTemplate

variable {f g : Dialect → Fragment} {fs : Dialect → List Fragment}

theorem const (f : Fragment) : OneTemplate fun _ => f := by
  refine ⟨⟨[.text f.sql], f.params⟩, fun d => ?_⟩
  simp [Template.fill, Piece.fill, String.join_cons]

/-- A comparison of a field begins with its expression. -/
theorem field (form : FieldForm) (name after : String) (params : List Value) :
    OneTemplate fun d => ⟨d.expression form name ++ after, params⟩ := by
  refine ⟨⟨[.field form name, .text after], params⟩, fun d => ?_⟩
  simp [Template.fill, Piece.fill, String.join_cons]

theorem append (hf : OneTemplate f) (hg : OneTemplate g) : OneTemplate fun d => f d ++ g d := by
  obtain ⟨t, ht⟩ := hf
  obtain ⟨u, hu⟩ := hg
  refine ⟨t.append u, fun d => ?_⟩
  show f d ++ g d = _
  rw [ht, hu, Template.fill_append]

theorem between (hf : OneTemplate f) (before after : String) :
    OneTemplate fun d => ⟨before ++ (f d).sql ++ after, (f d).params⟩ := by
  obtain ⟨t, ht⟩ := hf
  refine ⟨t.between before after, fun d => ?_⟩
  show (⟨before ++ (f d).sql ++ after, (f d).params⟩ : Fragment) = _
  rw [ht, Template.fill_between]
  rfl

theorem push (hf : OneTemplate f) (text : String) : OneTemplate fun d => (f d).push text := by
  have h := hf.between "" text
  simp only [String.empty_append] at h
  exact h

theorem chain (separator : String) : ∀ ts : List Template,
    OneTemplate fun d => Fragment.chain separator (ts.map (·.fill d.expression))
  | [] => const Fragment.empty
  | [t] => ⟨t, fun _ => rfl⟩
  | t :: u :: ts => by
    have hfirst : OneTemplate fun d => t.fill d.expression := ⟨t, fun _ => rfl⟩
    exact (hfirst.push separator).append (chain separator (u :: ts))

/-- The same parts have a text in both dialects. -/
theorem join (hfs : OneTemplateEach fs) (separator : String) :
    OneTemplate fun d => Fragment.join separator (fs d) := by
  obtain ⟨ts, hts⟩ := hfs
  have hfilter : ∀ d : Dialect, (fs d).filter (!·.isEmpty) =
      (ts.filter (!·.isEmpty)).map (·.fill d.expression) := by
    intro d
    rw [hts, List.filter_map]
    congr 1
    apply List.filter_congr
    intro t _
    rw [Function.comp_apply, Template.isEmpty_fill d.expression_ne_empty]
  simp only [Fragment.join, hfilter]
  exact chain separator _

end OneTemplate

/-! ### Conditions -/

theorem Test.oneTemplate_render (t : Test) : OneTemplate fun d => t.render d := by
  cases t with
  | equals field value => exact .field .text field _ _
  | among field values =>
    simp only [render, String.append_assoc]
    exact .field .text field _ _
  | like field pattern => exact .field .text field _ _
  | compareText field op value =>
    simp only [render, String.append_assoc]
    exact .field .text field _ _
  | compareNumber field op value =>
    simp only [render, String.append_assoc]
    exact .field .number field _ _
  | present field => exact .field .plain field _ _

namespace Condition

mutual

/-- **The texts of a condition come of one template.** -/
theorem oneTemplate_render : ∀ c : Condition, OneTemplate fun d => c.render d
  | .test t => t.oneTemplate_render
  | .never => .const Fragment.never
  | .all parts => .join (oneTemplate_renderList parts) " AND "
  | .any parts => .join (oneTemplate_renderList parts) " OR "
  | .group c => (oneTemplate_render c).between "(" ")"
  | .not c => (oneTemplate_render c).between "NOT (" ")"

theorem oneTemplate_renderList : ∀ cs : List Condition, OneTemplateEach fun d => renderList d cs
  | [] => ⟨[], fun _ => rfl⟩
  | c :: cs => by
    obtain ⟨t, ht⟩ := oneTemplate_render c
    obtain ⟨ts, hts⟩ := oneTemplate_renderList cs
    refine ⟨t :: ts, fun d => ?_⟩
    rw [List.map_cons, ← ht, ← hts]
    rfl

end

theorem oneTemplate_render? (c : Option Condition) : OneTemplate fun d => render? d c := by
  cases c with
  | none => exact .const Fragment.empty
  | some c => exact c.oneTemplate_render

end Condition

end DocSearch
