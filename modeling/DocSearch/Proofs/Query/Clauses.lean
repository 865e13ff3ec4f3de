import DocSearch.Proofs.Json.Symmetry
import DocSearch.Proofs.Query.Parameters

/-!
# When queries are read

A query is read as its kind says.  A boolean query is read member by member: what stands for
one of its four groups is read as a list of queries, and the other members say how many clauses
are enough and give a weight.  The queries that it holds are smaller than itself, and so what
holds of the queries without others in them and is handed on to boolean queries holds of all
queries.

## Main definitions

* `ClauseGroup` — the four groups of a boolean query.
* `ClauseWrites` — what the members of a boolean query write.

## Main results

* `Predicate.ofJson_eq_ok` — when a query is read, and what as.
* `Predicate.reading_induction` — an induction on queries that are read.
-/

namespace DocSearch

open Steps

/-! ### Groups -/

/-- The four groups of a boolean query. -/
inductive ClauseGroup where
  /-- What a document has to meet. -/
  | must
  /-- What it has to meet as well. -/
  | filter
  /-- What it must not meet. -/
  | mustNot
  /-- Of these it has to meet enough. -/
  | should
  deriving DecidableEq, Repr

namespace ClauseGroup

variable {α : Type}

/-- The name of a group in a boolean query. -/
def key : ClauseGroup → String
  | must => "must"
  | filter => "filter"
  | mustNot => "must_not"
  | should => "should"

/-- The clauses of a group. -/
def get : ClauseGroup → BoolClauses α → List α
  | must => BoolClauses.must
  | filter => BoolClauses.filter
  | mustNot => BoolClauses.mustNot
  | should => BoolClauses.should

/-- Put clauses in a group, in the place of those that are there. -/
def set (g : ClauseGroup) (ps : List α) (groups : BoolClauses α) : BoolClauses α :=
  match g with
  | must => { groups with must := ps }
  | filter => { groups with filter := ps }
  | mustNot => { groups with mustNot := ps }
  | should => { groups with should := ps }

theorem key_injective {g g' : ClauseGroup} (h : g.key = g'.key) : g = g' := by
  revert h
  cases g <;> cases g' <;> simp [key]

@[simp] theorem get_set (g : ClauseGroup) (ps : List α) (groups : BoolClauses α) :
    g.get (g.set ps groups) = ps := by
  cases g <;> rfl

theorem get_set_of_ne {g g' : ClauseGroup} (h : g ≠ g') (ps : List α) (groups : BoolClauses α) :
    g.get (g'.set ps groups) = g.get groups := by
  cases g <;> cases g' <;> first | rfl | exact absurd rfl h

end ClauseGroup

/-! ### Members of a boolean query -/

namespace Query

/-- What the members of a boolean query write. -/
inductive ClauseWrites : Writing (BoolClauses Predicate)
  | group (g : ClauseGroup) {v ps}
    (h : List.Forall₂ (fun c p => Predicate.ofJson c = .ok p) (Json.listed v) ps) :
    ClauseWrites g.key v (g.set ps)
  | threshold {v raw} (h : threshold v = .ok raw) :
    ClauseWrites "minimum_should_match" v fun groups =>
      { groups with minimumShouldMatch := some raw }
  | boost {v x} (h : Json.IsDouble v x) : ClauseWrites "boost" v fun groups => groups

section Writes

variable {g : ClauseGroup} {key : String} {v : Json}
  {w : BoolClauses Predicate → BoolClauses Predicate}

/-- A member leaves the groups of other names as they are. -/
theorem ClauseWrites.get_of_ne (hw : ClauseWrites key v w) (hne : key ≠ g.key)
    (groups : BoolClauses Predicate) : g.get (w groups) = g.get groups := by
  cases hw with
  | group g' => exact ClauseGroup.get_set_of_ne (fun h => hne (by rw [h])) _ groups
  | threshold => cases g <;> rfl
  | boost => rfl

/-- A member writes the queries that it lists into the group of its name. -/
theorem ClauseWrites.get_of_eq (hw : ClauseWrites key v w) (hkey : key = g.key) :
    ∃ ps, List.Forall₂ (fun c p => Predicate.ofJson c = .ok p) v.listed ps ∧
      ∀ groups, g.get (w groups) = ps := by
  cases hw with
  | group g' hps =>
    obtain rfl := ClauseGroup.key_injective hkey
    exact ⟨_, hps, fun groups => g'.get_set _ groups⟩
  | threshold | boost => cases g <;> exact absurd hkey (by decide)

end Writes

theorem ofItems_eq_ok {vs : List Json} {ps : List Predicate} : Predicate.ofItems vs = .ok ps ↔
    List.Forall₂ (fun c p => Predicate.ofJson c = .ok p) vs ps := by
  induction vs generalizing ps with
  | nil =>
    rw [Predicate.ofItems]
    cases ps <;> simp
  | cons v vs ih =>
    simp only [Predicate.ofItems, bind_eq_ok, pure_eq_ok, ih, List.forall₂_cons_left_iff]
    constructor
    · rintro ⟨p, hp, ps, hps, h⟩
      exact ⟨p, ps, hp, hps, h.symm⟩
    · rintro ⟨p, ps, hp, hps, h⟩
      exact ⟨p, hp, ps, hps, h.symm⟩

/-- A query that stands alone is read as the list of that query. -/
theorem clauses_eq_ok {v : Json} {ps : List Predicate} :
    (if v.isObject then (Predicate.ofJson v).map ([·]) else Predicate.ofArray v) = .ok ps ↔
      List.Forall₂ (fun c p => Predicate.ofJson c = .ok p) v.listed ps := by
  cases v with
  | arr items => exact ofItems_eq_ok
  | obj ms =>
    have hobject : (Json.obj ms).isObject = true := rfl
    have hlisted : (Json.obj ms).listed = [.obj ms] := rfl
    rw [if_pos hobject, map_eq_ok, hlisted]
    constructor
    · rintro ⟨p, hp, rfl⟩
      exact .cons hp .nil
    · rintro (_ | ⟨hp, _ | _⟩)
      exact ⟨_, hp, rfl⟩
  | _ =>
    -- what is neither is no list of queries, and no query either
    refine iff_of_false (by simp [Json.isObject, Predicate.ofArray]) ?_
    rintro (_ | ⟨hp, -⟩)
    simp [Predicate.ofJson] at hp

theorem boolClauses_cons_eq_ok {groups groups' : BoolClauses Predicate} {key : String} {v : Json}
    {ms : List (String × Json)} : boolClauses groups ((key, v) :: ms) = .ok groups' ↔
      ∃ w, ClauseWrites key v w ∧ boolClauses (w groups) ms = .ok groups' := by
  constructor
  · intro h
    simp only [boolClauses] at h
    -- the four groups differ in their key and in where they write, and in nothing else
    have hgroup : ∀ (g : ClauseGroup) {f : List Predicate → BoolClauses Predicate}
        {next : BoolClauses Predicate}, key = g.key → (∀ ps, f ps = g.set ps groups) →
        Except.map f (if v.isObject then (Predicate.ofJson v).map ([·]) else Predicate.ofArray v) =
          .ok next → boolClauses next ms = .ok groups' →
        ∃ w, ClauseWrites key v w ∧ boolClauses (w groups) ms = .ok groups' := by
      rintro g f next rfl hf hnext hms
      obtain ⟨ps, hps, rfl⟩ := map_eq_ok.mp hnext
      exact ⟨_, .group g (clauses_eq_ok.mp hps), by rw [← hf]; exact hms⟩
    split at h
    · obtain ⟨next, hnext, h⟩ := bind_eq_ok.mp h
      exact hgroup .must ‹_› (fun _ => rfl) hnext h
    split at h
    · obtain ⟨next, hnext, h⟩ := bind_eq_ok.mp h
      exact hgroup .filter ‹_› (fun _ => rfl) hnext h
    split at h
    · obtain ⟨next, hnext, h⟩ := bind_eq_ok.mp h
      exact hgroup .mustNot ‹_› (fun _ => rfl) hnext h
    split at h
    · obtain ⟨next, hnext, h⟩ := bind_eq_ok.mp h
      exact hgroup .should ‹_› (fun _ => rfl) hnext h
    split at h
    · next hkey =>
      subst hkey
      obtain ⟨next, hnext, h⟩ := bind_eq_ok.mp h
      obtain ⟨raw, hraw, rfl⟩ := map_eq_ok.mp hnext
      exact ⟨_, .threshold hraw, h⟩
    split at h
    · next hkey =>
      subst hkey
      obtain ⟨next, hnext, h⟩ := bind_eq_ok.mp h
      obtain ⟨x, hx, rfl⟩ := map_eq_ok.mp hnext
      exact ⟨_, .boost (number_eq_ok.mp hx), h⟩
    · obtain ⟨_, hnext, _⟩ := bind_eq_ok.mp h
      cases hnext
  · rintro ⟨w, hw, h⟩
    cases hw with
    | group g hps =>
      have hclauses := clauses_eq_ok.mpr hps
      cases g <;> simp [boolClauses, ClauseGroup.key, hclauses] <;> exact h
    | threshold hraw =>
      simp only [boolClauses, hraw]
      exact h
    | boost hx =>
      simp only [boolClauses, number_eq_ok.mpr hx]
      exact h

theorem boolClauses_eq_ok {groups groups' : BoolClauses Predicate} {ms : List (String × Json)} :
    boolClauses groups ms = .ok groups' ↔ ClauseWrites.Run ms groups groups' := by
  induction ms generalizing groups with
  | nil => simp [boolClauses]
  | cons m ms ih =>
    rw [boolClauses_cons_eq_ok, Writing.run_cons]
    simp only [ih]

/-- The members of a group have been read from clauses of the query. -/
theorem ClauseWrites.exists_of_mem {groups : BoolClauses Predicate} {ms : List (String × Json)}
    (h : ClauseWrites.Run ms {} groups) {g : ClauseGroup} {p : Predicate} (hp : p ∈ g.get groups) :
    ∃ m ∈ ms, ∃ c ∈ m.2.listed, Predicate.ofJson c = .ok p := by
  have hother : ∀ key v w, ClauseWrites key v w → ¬key = g.key → ∀ s, g.get (w s) = g.get s :=
    fun _ _ _ hw hne => hw.get_of_ne hne
  rcases h.exists_last hother with
    ⟨-, hslot⟩ | ⟨before, m, after, w, r, rfl, hkey, -, hw, hslot⟩
  · -- no member writes into the group, which is empty at first
    rw [hslot] at hp
    cases g <;> cases hp
  · obtain ⟨ps, hps, hget⟩ := hw.get_of_eq hkey
    rw [hslot, hget] at hp
    obtain ⟨c, hc, hread⟩ := exists_of_forall₂_right hps p hp
    exact ⟨m, by simp, c, hc, hread⟩

end Query

open Query

/-! ### Queries -/

namespace Predicate

variable {q : Json} {p : Predicate}

theorem ofJson_of_ne_bool {kind : String} (hkind : kind ≠ "bool") (body : Json) :
    ofJson (.obj [(kind, body)]) = simple kind body := by
  cases body <;> simp [ofJson, hkind]

theorem ofJson_bool_eq_ok {ms : List (String × Json)} :
    ofJson (.obj [("bool", .obj ms)]) = .ok p ↔
      ∃ groups, ClauseWrites.Run ms {} groups ∧ .bool groups = p := by
  simp only [ofJson, if_pos, map_eq_ok, boolClauses_eq_ok]

/-- **When a query is read.** -/
theorem ofJson_eq_ok : ofJson q = .ok p ↔
    (∃ kind body, q = .obj [(kind, body)] ∧ kind ≠ "bool" ∧ simple kind body = .ok p) ∨
    ∃ ms groups, q = .obj [("bool", .obj ms)] ∧ ClauseWrites.Run ms {} groups ∧
      p = .bool groups := by
  constructor
  · intro h
    match q, h with
    | .obj [(kind, body)], h =>
      by_cases hkind : kind = "bool"
      · subst hkind
        cases body with
        | obj ms =>
          obtain ⟨groups, hrun, rfl⟩ := ofJson_bool_eq_ok.mp h
          exact .inr ⟨ms, groups, rfl, hrun, rfl⟩
        | _ => simp [ofJson] at h
      · rw [ofJson_of_ne_bool hkind] at h
        exact .inl ⟨kind, body, rfl, hkind, h⟩
  · rintro (⟨kind, body, rfl, hkind, h⟩ | ⟨ms, groups, rfl, hrun, rfl⟩)
    · rw [ofJson_of_ne_bool hkind]
      exact h
    · exact ofJson_bool_eq_ok.mpr ⟨groups, hrun, rfl⟩

end Predicate

theorem Json.sizeOf_listed_le {v c : Json} (hc : c ∈ v.listed) : sizeOf c ≤ sizeOf v := by
  unfold listed at hc
  split at hc
  · have hlt := List.sizeOf_lt_of_mem hc
    simp only [Json.arr.sizeOf_spec]
    omega
  · exact Nat.le_of_eq (congrArg sizeOf (List.mem_singleton.mp hc))

/-- The queries in a boolean query are smaller than it is. -/
theorem Json.sizeOf_clause_lt {ms : List (String × Json)} {m : String × Json} (hm : m ∈ ms)
    {c : Json} (hc : c ∈ m.2.listed) : sizeOf c < sizeOf (Json.obj [("bool", .obj ms)]) := by
  obtain ⟨key, v⟩ := m
  have hc := sizeOf_listed_le hc
  have hm := List.sizeOf_lt_of_mem hm
  simp only [Json.obj.sizeOf_spec, List.cons.sizeOf_spec, Prod.mk.sizeOf_spec] at hm hc ⊢
  omega

/-- **What is handed on from the clauses to boolean queries holds of all queries that are
read**, if it holds of the other kinds. -/
theorem Predicate.reading_induction {motive : Json → Predicate → Prop}
    (simple : ∀ {kind body p}, kind ≠ "bool" → Query.simple kind body = .ok p →
      motive (.obj [(kind, body)]) p)
    (bool : ∀ {ms groups}, ClauseWrites.Run ms {} groups →
      (∀ m ∈ ms, ∀ c ∈ m.2.listed, ∀ p, ofJson c = .ok p → motive c p) →
      motive (.obj [("bool", .obj ms)]) (.bool groups)) {q : Json} {p : Predicate}
    (h : ofJson q = .ok p) : motive q p := by
  rcases ofJson_eq_ok.mp h with ⟨kind, body, rfl, hkind, h⟩ | ⟨ms, groups, hq, hrun, rfl⟩
  · exact simple hkind h
  · rw [hq]
    exact bool hrun fun m hm c hc p hp => Predicate.reading_induction simple bool hp
termination_by sizeOf q
decreasing_by
  rw [hq]
  exact Json.sizeOf_clause_lt hm hc

end DocSearch
