import DocSearch.Proofs.Aggregation.RoundTrip
import DocSearch.Proofs.Json.Distinct

/-!
# Siblings have names of their own

Siblings are the members of an object.  So where the objects of a request have each name
once, the siblings of every level have it once too, in the order of the object.

## Main definitions

* `Aggregation.Distinct`, `Aggregations.Distinct` — no level has two siblings of one name.

## Main results

* `Aggregations.names_of_ofMembers` — the siblings have the names of the members.
* `Aggregations.distinct_of_ofValue` — the siblings of a distinct value are distinct.
-/

namespace DocSearch

open Steps Members Aggregation

mutual

/-- No two siblings below an aggregation have the same name, at any level. -/
def Aggregation.Distinct : Aggregation → Prop
  | .metric _ _ => True
  | .dateHistogram _ _ _ children => Aggregations.Distinct children

/-- No two of several siblings have the same name, and none below them have. -/
def Aggregations.Distinct : List (String × Aggregation) → Prop
  | [] => True
  | (name, a) :: rest => name ∉ names rest ∧ a.Distinct ∧ Aggregations.Distinct rest

end

theorem Aggregations.nodup_of_distinct {siblings : Aggregations}
    (h : Aggregations.Distinct siblings) : (names siblings).Nodup := by
  induction siblings with
  | nil => exact List.nodup_nil
  | cons s rest ih =>
    obtain ⟨name, a⟩ := s
    obtain ⟨hname, -, hrest⟩ := h
    exact List.nodup_cons.mpr ⟨hname, ih hrest⟩

/-- Siblings have the names of the members that spell them, in the same order. -/
theorem Aggregations.names_of_ofMembers {ms : List (String × Json)} {siblings : Aggregations}
    (h : Aggregations.ofMembers ms = .ok siblings) : names siblings = names ms := by
  induction ms generalizing siblings with
  | nil =>
    rw [Aggregations.ofMembers] at h
    cases h
    rfl
  | cons m rest ih =>
    obtain ⟨name, body⟩ := m
    simp only [Aggregations.ofMembers, bind_eq_ok, pure_eq_ok] at h
    obtain ⟨a, -, others, hothers, rfl⟩ := h
    have hnames : names others = names rest := ih hothers
    exact congrArg (name :: ·) hnames

mutual

/-- **The siblings of a distinct value are distinct**, at every level. -/
theorem Aggregations.distinct_of_ofValue {owner : String} :
    ∀ {v : Json} {siblings : Aggregations}, v.Distinct →
      Aggregations.ofValue owner v = .ok siblings → Aggregations.Distinct siblings
  | .obj ms, siblings, hv, h => by
    rw [Aggregations.ofValue] at h
    cases hv with
    | obj hnames hmembers => exact Aggregations.distinct_of_ofMembers hnames hmembers h
  | .null, _, _, h => by simp [Aggregations.ofValue] at h
  | .bool _, _, _, h => by simp [Aggregations.ofValue] at h
  | .num _, _, _, h => by simp [Aggregations.ofValue] at h
  | .str _, _, _, h => by simp [Aggregations.ofValue] at h
  | .arr _, _, _, h => by simp [Aggregations.ofValue] at h

theorem Aggregations.distinct_of_ofMembers :
    ∀ {ms : List (String × Json)} {siblings : Aggregations}, (names ms).Nodup →
      (∀ m ∈ ms, m.2.Distinct) → Aggregations.ofMembers ms = .ok siblings →
        Aggregations.Distinct siblings
  | [], siblings, _, _, h => by
    rw [Aggregations.ofMembers] at h
    cases h
    exact trivial
  | (name, body) :: rest, siblings, hnames, hms, h => by
    simp only [Aggregations.ofMembers, bind_eq_ok, pure_eq_ok] at h
    obtain ⟨a, ha, others, hothers, rfl⟩ := h
    obtain ⟨hname, hrest⟩ := List.nodup_cons.mp hnames
    obtain ⟨hbody, hbodies⟩ := List.forall_mem_cons.mp hms
    have hnew : name ∉ names others := by
      rw [Aggregations.names_of_ofMembers hothers]
      exact hname
    exact ⟨hnew, Aggregation.distinct_of_ofBody hbody ha,
      Aggregations.distinct_of_ofMembers hrest hbodies hothers⟩

theorem Aggregation.distinct_of_ofBody {name : String} :
    ∀ {body : Json} {a : Aggregation}, body.Distinct → Aggregation.ofBody name body = .ok a →
      a.Distinct
  | .obj ms, a, hbody, h => by
    rcases ofBody_cases h with
      ⟨m, f, rfl, -⟩ | ⟨f, i, form, children, ms', rfl, -, -, hms, hchildren⟩
    · exact trivial
    · cases hms
      cases hbody with
      | obj _ hmembers => exact Aggregations.distinct_of_ofChildren hmembers hchildren
  | .null, _, _, h => by simp [Aggregation.ofBody] at h
  | .bool _, _, _, h => by simp [Aggregation.ofBody] at h
  | .num _, _, _, h => by simp [Aggregation.ofBody] at h
  | .str _, _, _, h => by simp [Aggregation.ofBody] at h
  | .arr _, _, _, h => by simp [Aggregation.ofBody] at h

theorem Aggregations.distinct_of_ofChildren {name : String} :
    ∀ {ms : List (String × Json)} {siblings : Aggregations}, (∀ m ∈ ms, m.2.Distinct) →
      (Aggregations.ofChildren name ms).getD (.ok []) = .ok siblings →
        Aggregations.Distinct siblings
  | [], _, _, h => by
    cases h
    exact trivial
  | (key, v) :: rest, siblings, hms, h => by
    obtain ⟨hv, hrest⟩ := List.forall_mem_cons.mp hms
    rw [Aggregations.ofChildren] at h
    split at h
    · exact Aggregations.distinct_of_ofValue hv h
    · exact Aggregations.distinct_of_ofChildren hrest h

end

end DocSearch
