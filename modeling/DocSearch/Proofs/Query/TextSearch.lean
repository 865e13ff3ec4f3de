import DocSearch.Proofs.Query.Meaning
import DocSearch.Proofs.Sql.Like

/-!
# What a search for a text finds

A text is looked for with patterns, one for each of its words, or one for the whole text.
The special characters of a pattern are escaped in them, so a document is found by the text
that was asked for and not by what its characters mean in a pattern.

Which characters count as the same, and what the fields hold, is not said here.  A field
without a value has no text, and nothing is found in it.

## Main definitions

* `Comparison.likeTruth` — the truth of a comparison with a pattern, given the texts of fields.
* `TextQuery.Found` — a text is found in one of several texts.
* `Predicate.textQuery?` — the text that a predicate looks for, and the fields.

## Main results

* `TextQuery.truth_eq_true_iff` — a text is found if its patterns match.
* `TextQuery.holds_patterns` — the patterns of a text match where the text is found.
* `Predicate.text_found` — **what is matched by escaped patterns, and what is found by a text**.
-/

namespace DocSearch

open Sql Condition

/-! ### Words of a text -/

/-- A text has no words exactly if it is blank. -/
theorem Text.words_eq_nil_iff (s : String) : Text.words s = [] ↔ Text.isAllBlank s = true := by
  rw [Text.words, Text.isAllBlank, List.map_eq_nil_iff]
  induction s.toList with
  | nil => simp
  | cons c cs ih =>
    rw [Text.splitWhere, List.all_cons]
    cases hc : Text.isBlank c with
    | true => simpa using ih
    | false =>
      cases hpieces : Text.splitWhere Text.isBlank cs with
      | nil => exact absurd hpieces (Text.splitWhere_ne_nil _ _)
      | cons piece pieces => simp

/-! ### What is true of several parts -/

namespace Truth

theorem or_eq_true_iff {t u : Truth} : or t u = some true ↔ t = some true ∨ u = some true := by
  rcases t with _ | _ | _ <;> rcases u with _ | _ | _ <;> decide

theorem and_eq_true_iff {t u : Truth} : and t u = some true ↔ t = some true ∧ u = some true := by
  rcases t with _ | _ | _ <;> rcases u with _ | _ | _ <;> decide

theorem any_eq_true_iff {ts : List Truth} : any ts = some true ↔ ∃ t ∈ ts, t = some true := by
  induction ts with
  | nil => simp [any, connectives]
  | cons t ts ih => exact or_eq_true_iff.trans (by rw [← any, ih, List.exists_mem_cons_iff])

theorem all_eq_true_iff {ts : List Truth} : all ts = some true ↔ ∀ t ∈ ts, t = some true := by
  induction ts with
  | nil => simp [all, connectives]
  | cons t ts ih => exact and_eq_true_iff.trans (by rw [← all, ih, List.forall_mem_cons])

end Truth

/-- What an operator asks of several parts. -/
def Operator.Holds (op : Operator) (P : String → Prop) (parts : List String) : Prop :=
  match op with
  | .and => ∀ x ∈ parts, P x
  | .or => ∃ x ∈ parts, P x

namespace Operator

variable {op : Operator} {P Q : String → Prop} {parts : List String}

theorem holds_congr (h : ∀ x ∈ parts, P x ↔ Q x) : op.Holds P parts ↔ op.Holds Q parts := by
  cases op with
  | and => exact forall₂_congr h
  | or => exact exists_congr fun x => and_congr_right (h x)

theorem holds_map (f : String → String) : op.Holds P (parts.map f) ↔ op.Holds (P ∘ f) parts := by
  cases op <;> simp [Holds]

theorem holds_singleton (x : String) : op.Holds P [x] ↔ P x := by
  cases op <;> simp [Holds]

end Operator

/-! ### What is found -/

/-- The truth of a comparison with a pattern, given the texts of operands.  An operand without
text makes it unknown. -/
def Sql.Comparison.likeTruth (same : Char → Char → Bool) (value : Operand → Option (List Char)) :
    Comparison → Truth
  | .like x (.value (.text pattern)) (.literal "\\") =>
    (value x).map (likeMatches same pattern.toList)
  | _ => none

namespace TextQuery

/-- A text is found in one of several texts: its words in any place, the whole text as one of
them, or as the start of one of them. -/
def Found (same : Char → Char → Bool) (q : TextQuery) (texts : List (List Char)) : Prop :=
  match q.mode with
  | .words => q.operator.Holds (fun w => ∃ t ∈ texts, Occurs same w.toList t) (Text.words q.text)
  | .phrase => ∃ t ∈ texts, SameText same q.text.toList t
  | .phrasePrefix => ∃ t ∈ texts, Starts same q.text.toList t

variable {q : TextQuery} {fields : List String}

/-- A text that is not blank is looked for. -/
theorem patterns_ne_nil (h : Text.isAllBlank q.text = false) : q.patterns ≠ [] := by
  have hwords : Text.words q.text ≠ [] := by
    rw [ne_eq, Text.words_eq_nil_iff, h]
    exact Bool.false_ne_true
  rw [patterns]
  cases q.mode with
  | words => simpa using hwords
  | phrase => simp [h]
  | phrasePrefix => simp [h]

/-- **A text is found if its patterns match**, each in one of the fields. -/
theorem truth_eq_true_iff (holds : Test → Truth) (h : q.patterns ≠ []) :
    q.truth holds fields = some true ↔ q.operator.Holds
      (fun pattern => ∃ field ∈ fields, holds (.like field pattern) = some true) q.patterns := by
  have hfound : ∀ pattern, Truth.any (fields.map fun field => holds (.like field pattern)) =
      some true ↔ ∃ field ∈ fields, holds (.like field pattern) = some true := by
    simp [Truth.any_eq_true_iff]
  rw [truth]
  cases hpatterns : q.patterns with
  | nil => exact absurd hpatterns h
  | cons pattern patterns =>
    cases hop : q.operator with
    | and => simp only [Truth.all_eq_true_iff, List.forall_mem_map, hfound, Operator.Holds]
    | or =>
      simp only [Truth.any_eq_true_iff, List.mem_map, exists_exists_and_eq_and, hfound,
        Operator.Holds]

/-- What is true of the text of a field is true of one of the texts that fields have. -/
theorem exists_map_eq_true_iff {value : String → Option (List Char)} {f : List Char → Bool} :
    (∃ field ∈ fields, (value field).map f = some true) ↔
      ∃ t ∈ fields.filterMap value, f t = true := by
  simp only [Option.map_eq_some_iff, List.mem_filterMap]
  exact ⟨fun ⟨field, hfield, t, ht, hf⟩ => ⟨t, ⟨field, hfield, ht⟩, hf⟩,
    fun ⟨t, ⟨field, hfield, ht⟩, hf⟩ => ⟨field, hfield, t, ht, hf⟩⟩

/-- **The patterns of a text match where it is found.** -/
theorem holds_patterns {same : Char → Char → Bool} (texts : List (List Char))
    (h : Text.isAllBlank q.text = false) :
    q.operator.Holds (fun pattern => ∃ t ∈ texts, likeMatches same pattern.toList t = true)
      q.patterns ↔ q.Found same texts := by
  have hfront : ∀ s : String, ("%" ++ s ++ "%").toList = '%' :: (s.toList ++ ['%']) := by
    simp [String.toList_append]
  have hbehind : ∀ s : String, (s ++ "%").toList = s.toList ++ ['%'] := by
    simp [String.toList_append]
  have hescape : ∀ s : String, (escapeLike s).toList = escapeLikeChars s.toList :=
    fun s => String.toList_ofList
  rw [patterns, Found]
  cases q.mode with
  | words =>
    simp only [Operator.holds_map, Function.comp_def, hfront, hescape, likeMatches_any_escape_any]
  | phrase =>
    simp only [h, Bool.false_eq_true, if_false, Operator.holds_singleton, hescape,
      likeMatches_escape]
  | phrasePrefix =>
    simp only [h, Bool.false_eq_true, if_false, Operator.holds_singleton, hbehind, hescape,
      likeMatches_escape_any]

end TextQuery

namespace Predicate

/-- The text that a predicate looks for, and the fields it looks in. -/
def textQuery? : Predicate → Option (TextQuery × List String)
  | .fullText field query _ => some (query, [field])
  | .multiField fields query => some (query, fields.map (·.name))
  | .startsWith field text => some (⟨text, .or, .none, .phrasePrefix⟩, [field])
  | _ => none

variable {p : Predicate} {q : TextQuery} {fields : List String}

theorem wellFormed_of_textQuery? (hp : p.textQuery? = some (q, fields)) (hne : fields ≠ []) :
    p.WellFormed := by
  cases p with
  | multiField fields query =>
    cases hp
    exact fun h => hne (by rw [h, List.map_nil])
  | fullText => trivial
  | startsWith => trivial
  | _ => cases hp

/-- Such a predicate has a condition. -/
theorem exists_compile_of_textQuery? (hp : p.textQuery? = some (q, fields)) (hne : fields ≠ [])
    (h : Text.isAllBlank q.text = false) : ∃ c, p.compile = .ok (some c) := by
  have hpatterns : q.patterns.isEmpty = false := by simpa using TextQuery.patterns_ne_nil h
  have hfields : fields.isEmpty = false := by simpa using hne
  have hquery : ∃ c, q.compile fields = some c := by
    rw [TextQuery.compile, hpatterns, hfields]
    exact ⟨_, rfl⟩
  cases p with
  | fullText =>
    cases hp
    exact hquery.imp fun c hc => congrArg _ hc
  | multiField =>
    cases hp
    exact hquery.imp fun c hc => congrArg _ hc
  | startsWith => exact ⟨_, rfl⟩
  | _ => cases hp

/-- Such a predicate is true if its text is found. -/
theorem truth_of_textQuery? (hp : p.textQuery? = some (q, fields))
    (h : Text.isAllBlank q.text = false) (holds : Test → Truth) :
    p.truth holds = some true ↔ q.truth holds fields = some true := by
  cases p with
  | fullText => cases hp; exact Iff.rfl
  | multiField => cases hp; exact Iff.rfl
  | startsWith field text =>
    cases hp
    rw [TextQuery.truth_eq_true_iff holds (TextQuery.patterns_ne_nil h)]
    simp [TextQuery.patterns, h, Operator.holds_singleton, truth]
  | _ => cases hp

/-- **A text finds what it says, and nothing in it has another meaning.**  A pattern of an
escaped text matches this text, what starts with it, or what it occurs in.  So the text of a
query is read as a condition that is true exactly if the text is found in one of the fields
that have a value. -/
theorem text_found (same : Char → Char → Bool) :
    (∀ s t : List Char,
      (likeMatches same (escapeLikeChars s) t = true ↔ SameText same s t) ∧
      (likeMatches same (escapeLikeChars s ++ ['%']) t = true ↔ Starts same s t) ∧
      (likeMatches same ('%' :: (escapeLikeChars s ++ ['%'])) t = true ↔ Occurs same s t)) ∧
    ∀ (p : Predicate) (q : TextQuery) (fields : List String), p.textQuery? = some (q, fields) →
      fields ≠ [] → Text.isAllBlank q.text = false →
        ∀ (d : Dialect) (value : Operand → Option (List Char)),
          ∃ c e, p.compile = .ok (some c) ∧ Expr.read (c.render d) = some e ∧
            (e.truth (Comparison.likeTruth same value) = some true ↔
              q.Found same (fields.filterMap fun field => value (d.textOperand field))) := by
  refine ⟨fun s t => ⟨likeMatches_escape s t, likeMatches_escape_any s t,
    likeMatches_any_escape_any s t⟩, fun p q fields hp hne htext d value => ?_⟩
  have hpatterns := TextQuery.patterns_ne_nil htext
  obtain ⟨c, hc⟩ := exists_compile_of_textQuery? hp hne htext
  obtain ⟨htight, htruth⟩ := compile_sound (wellFormed_of_textQuery? hp hne) hc
  obtain ⟨e, he, hmean⟩ := (htight c rfl).read_render d
  refine ⟨c, e, hc, he, ?_⟩
  have hexpr : e.truth (Comparison.likeTruth same value) =
      p.truth fun t => (t.comparison d).likeTruth same value := by
    rw [← htruth, Expr.truth, hmean]
    rfl
  rw [hexpr, truth_of_textQuery? hp htext, TextQuery.truth_eq_true_iff _ hpatterns,
    ← TextQuery.holds_patterns _ htext]
  refine Operator.holds_congr fun pattern _ => ?_
  rw [← TextQuery.exists_map_eq_true_iff]
  rfl

/-- A percent sign and a backslash are looked for as they are. -/
theorem text_found_special :
    let p := Predicate.fullText "n" ⟨"100% \\", .and, .none, .words⟩ none
    Text.isAllBlank "100% \\" = false ∧
      ∃ c e, p.compile = .ok (some c) ∧ Expr.read (c.render .sqlite) = some e ∧
        e.truth (Comparison.likeTruth (· == ·) fun _ => some "c:\\x 100%!".toList) = some true ∧
        e.truth (Comparison.likeTruth (· == ·) fun _ => some "c:\\x 1000".toList) ≠ some true := by
  intro p
  have htext : Text.isAllBlank "100% \\" = false := by decide
  have hfound := (text_found (· == ·)).2 p _ _ rfl (List.cons_ne_nil "n" []) htext .sqlite
  obtain ⟨c, e, hc, he, htruth⟩ := hfound fun _ => some "c:\\x 100%!".toList
  obtain ⟨c', e', hc', he', hother⟩ := hfound fun _ => some "c:\\x 1000".toList
  cases hc.symm.trans hc'
  cases he.symm.trans he'
  have hwords : Text.words "100% \\" = ["100%", "\\"] := by decide
  have hfields : ∀ t : List Char, ["n"].filterMap (fun _ => some t) = [t] := fun t => rfl
  simp only [hfields, TextQuery.Found, Operator.Holds, hwords, List.forall_mem_cons,
    List.exists_mem_cons_iff, List.not_mem_nil, false_and, exists_false, or_false,
    false_imp_iff, implies_true, and_true,
    ← likeMatches_any_escape_any] at htruth hother
  exact ⟨htext, c, e, hc, he, htruth.mpr (by decide), fun h => absurd (hother.mp h).1 (by decide)⟩

end Predicate

end DocSearch
