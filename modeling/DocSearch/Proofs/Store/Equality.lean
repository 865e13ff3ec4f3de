import DocSearch.Proofs.Json.Quoted
import DocSearch.Proofs.Query.Exclusion
import DocSearch.Proofs.Store.MemberPath
import DocSearch.Proofs.Store.Selection

/-!
# Which documents have a value

A document stores a value as JSON, and a query binds the value that it asks for as a text.
Both are brought to the same form: the text of the member is read as JSON again, a string is
its characters, and anything else is its spelling.  So what a string looks like does not
matter, and neither does the kind of the value.

What does matter is that the path of the field leads to the member.  A name with a backslash is
written into the path as it is, where the backslash starts an escape, so that the path asks for
another member.

## Main results

* `Scalar.textOfJson_print` — the text of a stored scalar is what it is compared by.
* `Document.fieldText_eq` — the text of a field, given where its path leads.
* `Predicate.selects_equal` — **a document is selected by the values that are spelt as the one
  it stores**, and by no other, if no backslash is in the name of the field.
* `Predicate.backslash_is_missed` — with a backslash the value may not be found.
-/

namespace DocSearch

open Sql Condition

/-! ### The text of a scalar -/

theorem skipBlanks_cons {c : Char} (hc : isJsonBlank c = false) (cs : List Char) :
    skipBlanks (c :: cs) = c :: cs := by
  rw [skipBlanks, List.dropWhile_cons, hc]
  rfl

/-- A quoted string is read back. -/
theorem Json.read_quoted (s : String) : Json.read (Json.quoted s) = some (.str s) := by
  have htext : (Json.quoted s).toList = '"' :: (s.toList.flatMap escapeChar ++ ['"']) := by
    simp [quoted]
  have hvalue : ∀ fuel depth, readValue (fuel + 1) depth (Json.quoted s).toList =
      some (.str s, []) := by
    intro fuel depth
    rw [htext, readValue, skipBlanks_cons (by decide)]
    simp [readQuoted_escaped]
  rw [read, readPrefix, hvalue]
  rfl

/-- A truth value is read back. -/
theorem Json.read_bool (b : Bool) : Json.read (Json.bool b).print = some (.bool b) := by
  cases b <;> rfl

namespace Scalar

/-- A number that is read back as it was written. -/
def IsReadBack (w : Scalar) : Prop := ∀ n, w = .number n → Json.read n.print = some (.num n)

/-- **The text of a stored scalar is what it is compared by.** -/
theorem textOfJson_print {w : Scalar} (hw : w.IsReadBack) :
    ScalarFunction.textOfJson w.toJson.print = .text w.spelling := by
  cases w with
  | text s =>
    rw [toJson, Json.print, ScalarFunction.textOfJson, Json.read_quoted]
    rfl
  | number n =>
    rw [toJson, Json.print, ScalarFunction.textOfJson, hw n rfl]
    rfl
  | bool b =>
    rw [toJson, ScalarFunction.textOfJson, Json.read_bool]
    rfl

end Scalar

/-! ### The text of a field -/

namespace Document

variable {d : Document} {field : String}

/-- The path of a field leads to the member that the field names. -/
def FollowsPath (d : Document) (field : String) : Prop :=
  followPath (Dialect.sqlitePath field) d.body = .ok (d.body.at? (Field.segments field))

/-- The text of a member of the body. -/
theorem fieldText_eq (hid : field ≠ "_id") (htype : field ≠ "_type") (hpath : d.FollowsPath field) :
    d.fieldText field =
      ScalarFunction.toText (.cell (Cell.ofMemberText (d.body.at? (Field.segments field)))) := by
  rw [fieldText, column?, if_neg hid, if_neg htype, member?, hpath]
  rfl

theorem fieldText_scalar (hid : field ≠ "_id") (htype : field ≠ "_type")
    (hpath : d.FollowsPath field) {w : Scalar} (hw : w.IsReadBack)
    (hfield : d.body.at? (Field.segments field) = some w.toJson) :
    d.fieldText field = .ok (.text w.spelling) := by
  rw [fieldText_eq hid htype hpath, hfield, Cell.ofMemberText, ScalarFunction.toText,
    w.textOfJson_print hw]

theorem fieldText_null (hid : field ≠ "_id") (htype : field ≠ "_type")
    (hpath : d.FollowsPath field) (hfield : d.body.at? (Field.segments field) = none ∨
      d.body.at? (Field.segments field) = some .null) : d.fieldText field = .ok .null := by
  rw [fieldText_eq hid htype hpath]
  rcases hfield with hfield | hfield
  · rw [hfield]
    rfl
  · rw [hfield]
    rfl

end Document

/-! ### Tests for equality -/

namespace Predicate

variable {d : Document} {field : String} {cell : Cell}

theorem compiles_terms (field : String) (values : List Scalar) :
    (Predicate.terms field values).Compiles := ⟨trivial, rfl⟩

/-- A test that has a truth value selects if it is true. -/
theorem map_getD_eq_ok_true {x : Except EvaluationError Truth} {t : Truth} (hx : x = .ok t) :
    x.map (·.getD false) = .ok true ↔ t = some true := by
  rw [hx]
  rcases t with _ | _ | _ <;> simp [Except.map]

/-- A document is selected by a value that its text equals. -/
theorem selects_term_iff (hcell : d.fieldText field = .ok cell) (v : Scalar)
    (boost : Option Float) : (Predicate.term field v boost).Selects d ↔ cell.Equals v.toValue := by
  have hholds : d.holds (.equals field v.toValue) =
      .ok ((cell.compare? (Cell.ofValue v.toValue)).map (· == .eq)) := by
    rw [Document.holds, hcell]
    rfl
  rw [(compiles_term field v boost).selects_iff, ← Cell.map_eq_some_true]
  exact map_getD_eq_ok_true hholds

/-- A document is selected by one of several values if its text equals one of them. -/
theorem selects_terms_iff (hcell : d.fieldText field = .ok cell) (values : List Scalar) :
    (Predicate.terms field values).Selects d ↔ ∃ v ∈ values, cell.Equals v.toValue := by
  rw [(compiles_terms field values).selects_iff]
  cases values with
  | nil => exact iff_of_false (fun h => nomatch h) (by simp)
  | cons v values =>
    have hholds : d.holds (.among field ((v :: values).map (·.toValue))) =
        .ok (cell.among ((v :: values).map (·.toValue))) := by
      rw [Document.holds, hcell]
      rfl
    have hamong : cell.among ((v :: values).map (·.toValue)) = some true ↔
        ∃ x ∈ (v :: values).map (·.toValue), cell.Equals x := Cell.among_eq_some_true
    simp only [List.mem_map, exists_exists_and_eq_and] at hamong
    exact (map_getD_eq_ok_true hholds).trans hamong

/-- **A document is selected by the values that are spelt as the one it stores.**  The same goes
for lists of values with such a value; so a document is found by the value it stores.  Without
a value it is not selected at all.  The name of the field may be any that is accepted and has
no backslash. -/
theorem selects_equal (hfield : Field.checkName field = .ok ()) (hslash : '\\' ∉ field.toList)
    (hid : field ≠ "_id") (htype : field ≠ "_type")
    (hplain : d.body.hasPlainNames (Field.segments field)) :
    (∀ w : Scalar, w.IsReadBack → d.body.at? (Field.segments field) = some w.toJson →
      (∀ v boost, (Predicate.term field v boost).Selects d ↔ v.spelling = w.spelling) ∧
      (∀ values, (Predicate.terms field values).Selects d ↔
        ∃ v ∈ values, v.spelling = w.spelling) ∧
      ∀ boost, (Predicate.term field w boost).Selects d) ∧
    (d.body.at? (Field.segments field) = none ∨ d.body.at? (Field.segments field) = some .null →
      (∀ v boost, ¬ (Predicate.term field v boost).Selects d) ∧
      ∀ values, ¬ (Predicate.terms field values).Selects d) := by
  have hpath : d.FollowsPath field := followPath_sqlitePath hfield hslash hplain
  refine ⟨fun w hw hmember => ?_, fun hmember => ?_⟩
  · have hcell := Document.fieldText_scalar hid htype hpath hw hmember
    have hequals : ∀ v : Scalar,
        (Cell.text w.spelling).Equals v.toValue ↔ v.spelling = w.spelling :=
      fun v => Cell.equals_text.trans eq_comm
    refine ⟨fun v boost => ?_, fun values => ?_, fun boost => ?_⟩
    · rw [selects_term_iff hcell, hequals]
    · simp only [selects_terms_iff hcell, hequals]
    · rw [selects_term_iff hcell, hequals]
  · have hcell := Document.fieldText_null hid htype hpath hmember
    have hequals : ∀ v : Scalar, ¬ Cell.null.Equals v.toValue := fun v h => nomatch h
    refine ⟨fun v boost => ?_, fun values => ?_⟩
    · rw [selects_term_iff hcell]
      exact hequals v
    · rw [selects_terms_iff hcell]
      exact fun ⟨v, _, hv⟩ => hequals v hv

/-- A number is found by its spelling, behind a name with a blank. -/
theorem selects_equal_number :
    let d : Document := ⟨"t", "1", .obj [("a", .obj [("b c", .num (.int 42))])]⟩
    (Predicate.terms "a.b c" [.bool true, .text "42"]).Selects d ∧
      ¬ (Predicate.term "a.b c" (.text "\"42\"") none).Selects d ∧
      ¬ (Predicate.term "a.c" (.number (.int 42)) none).Selects d := by
  intro d
  have hread : (Scalar.number (.int 42)).IsReadBack := by
    rintro n ⟨⟩
    rfl
  have hname : Field.checkName "a.b c" = .ok () := by decide
  have hplain : d.body.hasPlainNames (Field.segments "a.b c") := by decide
  obtain ⟨hterm, hterms, -⟩ :=
    (selects_equal hname (by decide) (by decide) (by decide) hplain).1 (.number (.int 42)) hread rfl
  refine ⟨(hterms _).mpr (by decide), fun h => absurd ((hterm _ _).mp h) (by decide), ?_⟩
  exact ((selects_equal (by decide) (by decide) (by decide) (by decide) (by decide)).2
    (.inl rfl)).1 _ _

/-- A backslash is allowed in the name of a field, but the path reads it as an escape: the member
`a\b` is stored, and the path asks for a member with a backspace in its name. -/
theorem backslash_is_missed :
    let d : Document := ⟨"t", "1", .obj [("a\\b", .str "x")]⟩
    Field.checkName "a\\b" = .ok () ∧
      d.body.at? (Field.segments "a\\b") = some (Scalar.text "x").toJson ∧
      ¬ (Predicate.term "a\\b" (.text "x") none).Selects d := by
  intro d
  have hcell : d.fieldText "a\\b" = .ok .null := by decide +kernel
  refine ⟨by decide, rfl, fun h => ?_⟩
  cases (selects_term_iff hcell (.text "x") none).mp h

end Predicate

end DocSearch
