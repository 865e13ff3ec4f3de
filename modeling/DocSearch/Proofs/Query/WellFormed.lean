import DocSearch.Proofs.Query.Clauses

/-!
# Predicates that can be read

A reader refuses a range without a bound and a text without a field to look in.  So
every predicate that is read is free of them, however deep its boolean combinations
are nested.

## Main definitions

* `Predicate.WellFormed` — ranges have bounds, texts have fields.

## Main results

* `Query.wellFormed_simple` — a query without others in it is read as such a predicate.
* `Predicate.wellFormed_of_ofJson` — what is read is well formed.
-/

namespace DocSearch

namespace Predicate

mutual

/-- Every range has a bound, and every text has a field to look in. -/
def WellFormed : Predicate → Prop
  | .multiField fields _ => fields ≠ []
  | .range _ bounds => bounds ≠ []
  | .bool ⟨must, filter, mustNot, should, _⟩ =>
    AllWellFormed must ∧ AllWellFormed filter ∧ AllWellFormed mustNot ∧ AllWellFormed should
  | _ => True

/-- All of several predicates are well formed. -/
def AllWellFormed : List Predicate → Prop
  | [] => True
  | p :: ps => WellFormed p ∧ AllWellFormed ps

end

theorem allWellFormed_iff {ps : List Predicate} : AllWellFormed ps ↔ ∀ p ∈ ps, p.WellFormed := by
  induction ps with
  | nil => simp [AllWellFormed]
  | cons p ps ih => simp [AllWellFormed, ih]

/-- A boolean combination is well formed if the members of its groups are. -/
theorem wellFormed_bool {groups : BoolClauses Predicate} :
    WellFormed (.bool groups) ↔ ∀ g : ClauseGroup, ∀ p ∈ g.get groups, p.WellFormed := by
  obtain ⟨must, filter, mustNot, should, raw⟩ := groups
  simp only [WellFormed, allWellFormed_iff]
  constructor
  · rintro ⟨hmust, hfilter, hmustNot, hshould⟩ g
    cases g with
    | must => exact hmust
    | filter => exact hfilter
    | mustNot => exact hmustNot
    | should => exact hshould
  · exact fun h => ⟨h .must, h .filter, h .mustNot, h .should⟩

end Predicate

/-! ### Queries that hold no other queries -/

namespace Query

variable {body : Json} {p : Predicate}

/-- A text is looked for in some field. -/
theorem wellFormed_multiField (h : multiField body = .ok p) : p.WellFormed := by
  obtain ⟨_, _, _, -, -, -, hne, rfl⟩ := multiField_eq_ok.mp h
  exact hne

/-- A range has a bound. -/
theorem wellFormed_range (h : range body = .ok p) : p.WellFormed := by
  obtain ⟨_, _, _, -, -, -, -, hne, rfl⟩ := range_eq_ok.mp h
  exact hne

theorem wellFormed_fullText {kind : String} {fixed : Option MatchMode}
    (h : fullText kind fixed body = .ok p) : p.WellFormed := by
  obtain ⟨_, _, _, _, -, -, -, -, rfl⟩ := fullText_eq_ok.mp h
  exact trivial

/-- **A query without others in it is read as a predicate that is well formed.** -/
theorem wellFormed_simple {kind : String} (h : simple kind body = .ok p) : p.WellFormed := by
  unfold simple at h
  split at h
  · obtain ⟨_, _, -, -, rfl⟩ := matchAll_eq_ok.mp h
    exact trivial
  · exact wellFormed_fullText h
  · exact wellFormed_fullText h
  · exact wellFormed_fullText h
  · exact wellFormed_multiField h
  · obtain ⟨_, _, _, _, -, -, -, -, rfl⟩ := term_eq_ok.mp h
    exact trivial
  · obtain ⟨_, _, _, -, -, -, -, rfl⟩ := terms_eq_ok.mp h
    exact trivial
  · obtain ⟨_, _, _, -, -, -, rfl⟩ := docType_eq_ok.mp h
    exact trivial
  · obtain ⟨_, _, _, -, -, -, rfl⟩ := ids_eq_ok.mp h
    exact trivial
  · exact wellFormed_range h
  · obtain ⟨_, _, _, -, -, -, rfl⟩ := present_eq_ok.mp h
    exact trivial
  · obtain ⟨_, _, _, _, -, -, -, -, rfl⟩ := startsWith_eq_ok.mp h
    exact trivial
  · cases h

end Query

open Query

/-- **What is read is well formed.** -/
theorem Predicate.wellFormed_of_ofJson {q : Json} {p : Predicate} (h : ofJson q = .ok p) :
    p.WellFormed := by
  refine reading_induction (motive := fun _ p => p.WellFormed) ?_ ?_ h
  · exact fun _ h => wellFormed_simple h
  · intro ms groups hrun ih
    rw [wellFormed_bool]
    intro g p hp
    obtain ⟨m, hm, c, hc, hread⟩ := ClauseWrites.exists_of_mem hrun hp
    exact ih m hm c hc p hread

end DocSearch
