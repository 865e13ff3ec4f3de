import DocSearch.Proofs.Query.Exclusion
import DocSearch.Proofs.Query.TextSearch
import DocSearch.Proofs.Store.Liveness
import Mathlib.Data.List.TakeWhile

/-!
# Which documents a search for a text selects

In a store, a pattern sees the characters of a text before its first NUL, letters of ASCII
have no case, and a pattern that is too long fails.  Apart from that, a document is selected
exactly if the text that is looked for is found in one of its fields.

## Main definitions

* `Document.visibleText?` — what a pattern sees of a field.

## Main results

* `Document.holds_like` — a pattern is matched with what it sees.
* `Predicate.selects_text` — **which documents are selected**.
-/

namespace DocSearch

open Sql Condition

/-! ### One pattern -/

/-- What a pattern sees of a field, if the field has a text. -/
def Document.visibleText? (d : Document) (field : String) : Option (List Char) :=
  match d.fieldText field with
  | .ok (.text s) => some (visibleToLike s)
  | _ => none

/-- A pattern that is not too long and has no NUL. -/
structure IsWholePattern (pattern : String) : Prop where
  length_le : pattern.utf8ByteSize ≤ maxPatternBytes
  nul_notMem : '\x00' ∉ pattern.toList

theorem visibleToLike_of_notMem {s : String} (h : '\x00' ∉ s.toList) :
    visibleToLike s = s.toList := by
  rw [visibleToLike, List.takeWhile_eq_self_iff]
  intro c hc
  exact bne_iff_ne.mpr fun heq => h (heq ▸ hc)

/-- A pattern is matched with what it sees of a field. -/
theorem Document.holds_like {d : Document} {field pattern : String}
    (hpattern : IsWholePattern pattern) (hfield : ∃ cell, d.fieldText field = .ok cell) :
    d.holds (.like field pattern) =
      .ok ((d.visibleText? field).map (likeMatches sameForLike pattern.toList)) := by
  obtain ⟨cell, hcell⟩ := hfield
  have hholds : d.holds (.like field pattern) = cell.like pattern := by
    rw [holds, hcell]
    rfl
  rw [hholds, Cell.like.eq_def, if_neg (Nat.not_lt.mpr hpattern.length_le), visibleText?, hcell]
  cases cell with
  | text s => rw [visibleToLike_of_notMem hpattern.nul_notMem]; rfl
  | _ => rfl

/-! ### The tests of a text -/

namespace Condition

theorem testsOfList_eq_flatMap (cs : List Condition) : testsOfList cs = cs.flatMap tests := by
  induction cs with
  | nil => rfl
  | cons c cs ih => rw [testsOfList, ih, List.flatMap_cons]

theorem tests_grouped {combine : List Condition → Condition}
    (h : ∀ cs, (combine cs).tests = testsOfList cs) (cs : List Condition) :
    (grouped combine cs).tests = cs.flatMap tests := by
  rw [← testsOfList_eq_flatMap, ← h]
  match cs with
  | [] => rfl
  | [c] => rfl
  | c :: c' :: cs => rfl

theorem tests_combine (op : Operator) (cs : List Condition) :
    (op.combine cs).tests = testsOfList cs := by
  cases op <;> rfl

end Condition

/-- The tests of a text match its patterns with its fields. -/
theorem TextQuery.tests_compile {q : TextQuery} {fields : List String} {c : Condition}
    (h : q.patterns ≠ []) (hne : fields ≠ []) (hc : q.compile fields = some c) :
    c.AllTests fun t => ∃ field ∈ fields, ∃ pattern ∈ q.patterns, t = .like field pattern := by
  have hpatterns : q.patterns.isEmpty = false := by simpa using h
  have hfields : fields.isEmpty = false := by simpa using hne
  rw [TextQuery.compile, hpatterns, hfields] at hc
  cases hc
  have hany : ∀ cs, (Condition.any cs).tests = testsOfList cs := fun cs => rfl
  intro t ht
  rw [tests_grouped (tests_combine q.operator), List.flatMap_map, List.mem_flatMap] at ht
  obtain ⟨pattern, hpattern, ht⟩ := ht
  rw [tests_grouped hany, List.flatMap_map, List.mem_flatMap] at ht
  obtain ⟨field, hfield, ht⟩ := ht
  exact ⟨field, hfield, pattern, hpattern, List.mem_singleton.mp ht⟩

namespace Predicate

variable {p : Predicate} {q : TextQuery} {fields : List String}

theorem tests_condition (hp : p.textQuery? = some (q, fields)) (hne : fields ≠ [])
    (h : Text.isAllBlank q.text = false) {c : Condition} (hc : p.compile = .ok (some c)) :
    c.AllTests fun t => ∃ field ∈ fields, ∃ pattern ∈ q.patterns, t = .like field pattern := by
  have hpatterns := TextQuery.patterns_ne_nil h
  cases p with
  | fullText =>
    cases hp
    exact TextQuery.tests_compile hpatterns hne (Except.ok.inj hc)
  | multiField =>
    cases hp
    exact TextQuery.tests_compile hpatterns hne (Except.ok.inj hc)
  | startsWith field text =>
    cases hp
    cases hc
    intro t ht
    refine ⟨field, List.mem_cons_self, escapeLike text ++ "%", ?_, List.mem_singleton.mp ht⟩
    simp [TextQuery.patterns, h]
  | _ => cases hp

/-- **A document is selected exactly if the text is found in one of its fields.** -/
theorem selects_text (hp : p.textQuery? = some (q, fields)) (hne : fields ≠ [])
    (h : Text.isAllBlank q.text = false) (hwhole : ∀ pattern ∈ q.patterns, IsWholePattern pattern)
    {d : Document} (hd : ∀ field ∈ fields, ∃ cell, d.fieldText field = .ok cell) :
    p.Selects d ↔ q.Found sameForLike (fields.filterMap d.visibleText?) := by
  have hpatterns := TextQuery.patterns_ne_nil h
  obtain ⟨c, hc⟩ := exists_compile_of_textQuery? hp hne h
  have hwf := wellFormed_of_textQuery? hp hne
  obtain ⟨htight, htruth⟩ := compile_sound hwf hc
  have hlike : ∀ field ∈ fields, ∀ pattern ∈ q.patterns, d.holds (.like field pattern) =
      .ok ((d.visibleText? field).map (likeMatches sameForLike pattern.toList)) :=
    fun field hfield pattern hpattern =>
      Document.holds_like (hwhole pattern hpattern) (hd field hfield)
  -- no test fails, so the condition is decided, and by its truth alone
  obtain ⟨b, hb⟩ : ∃ b, c.met d.holds false = .ok b := by
    refine met_total c false fun t ht => ?_
    obtain ⟨field, hfield, pattern, hpattern, rfl⟩ := tests_condition hp hne h hc t ht
    exact ⟨_, hlike field hfield pattern hpattern⟩
  have hselects : p.Selects d ↔ c.IsTrue d := by
    have hcondition := compile_eq_condition hc
    rw [Compiles.selects_iff ⟨hwf, hcondition ▸ hc⟩, hcondition, isTrue_iff_of_met hb, decide?,
      meaning?_some, ← met_eq_meaning, hb, Except.ok.injEq]
  have htrue : c.IsTrue d ↔ p.truth d.truth = some true := by
    rw [← htruth]
    rfl
  rw [hselects, htrue, truth_of_textQuery? hp h, TextQuery.truth_eq_true_iff _ hpatterns,
    ← TextQuery.holds_patterns _ h]
  refine Operator.holds_congr fun pattern hpattern => ?_
  rw [← TextQuery.exists_map_eq_true_iff]
  refine exists_congr fun field => and_congr_right fun hfield => ?_
  rw [Document.truth_of_holds (hlike field hfield pattern hpattern)]

end Predicate

end DocSearch
