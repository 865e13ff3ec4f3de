import DocSearch.Proofs.Json.Distinct
import DocSearch.Proofs.Json.Reordered
import DocSearch.Query.Predicate
import Mathlib.Data.List.Perm.Basic

/-!
# Reordering goes both ways

If the members of a value can be put in the order of another value, then so can those of the
other value in the order of the first.  Names that stand once still do so afterwards, and
where there are no members there is nothing to put in order.

## Main definitions

* `Json.Flat` — a scalar, or a list of scalars.

## Main results

* `Json.Reordered.symm` — reordering goes both ways.
* `Json.Distinct.reordered` — reordered values have each name once as well.
* `Json.Flat.eq_of_reordered` — flat values cannot be reordered.
-/

namespace DocSearch

/-! ### Lists that are related one by one -/

theorem forall_of_forall₂_right {α β : Type} {P : β → Prop} {as : List α} {bs : List β}
    (h : List.Forall₂ (fun _ b => P b) as bs) : ∀ b ∈ bs, P b := by
  induction h with
  | nil => simp
  | cons hb _ ih => exact List.forall_mem_cons.mpr ⟨hb, ih⟩

theorem forall₂_with_mem {α β : Type} {R : α → β → Prop} {as : List α} {bs : List β}
    (h : List.Forall₂ R as bs) : List.Forall₂ (fun a b => a ∈ as ∧ R a b) as bs :=
  (List.forall₂_and_left _ _).mpr ⟨fun _ ha => ha, h⟩

theorem exists_of_forall₂_right {α β : Type} {R : α → β → Prop} {as : List α} {bs : List β}
    (h : List.Forall₂ R as bs) : ∀ b ∈ bs, ∃ a ∈ as, R a b :=
  forall_of_forall₂_right ((forall₂_with_mem h).imp fun a b h => show ∃ a ∈ as, R a b from ⟨a, h⟩)

/-! ### What a reordered value looks like -/

namespace Json

theorem reordered_arr_iff {items : List Json} {v : Json} : (Json.arr items).Reordered v ↔
    ∃ items', v = .arr items' ∧ List.Forall₂ Reordered items items' := by
  constructor
  · intro h
    cases h with
    | same => exact ⟨items, rfl, List.forall₂_same.mpr fun v _ => .same v⟩
    | arr h => exact ⟨_, rfl, h⟩
  · rintro ⟨items', rfl, h⟩
    exact .arr h

theorem reordered_obj_iff {members : List (String × Json)} {v : Json} :
    (Json.obj members).Reordered v ↔ ∃ members', v = .obj members' ∧
      MembersReordered members members' := by
  constructor
  · intro h
    cases h with
    | same => exact ⟨members, rfl, members, .refl members, .refl members⟩
    | obj hnames hvalues hperm =>
      exact ⟨_, rfl, _, Members.forall₂_iff.mpr ⟨hnames, hvalues⟩, hperm⟩
  · rintro ⟨members', rfl, h⟩
    exact h.obj

/-- An object with one member stays one. -/
theorem reordered_singleton_iff {name : String} {v v' : Json} :
    (Json.obj [(name, v)]).Reordered v' ↔
      ∃ u, v' = .obj [(name, u)] ∧ v.Reordered u := by
  constructor
  · intro h
    obtain ⟨ms, rfl, between, halike, hperm⟩ := reordered_obj_iff.mp h
    cases halike with
    | @cons _ n _ _ hn hnil =>
      cases hnil
      obtain ⟨key, u⟩ := n
      obtain ⟨rfl, hu⟩ := hn
      exact ⟨u, by rw [← List.singleton_perm.mp hperm], hu⟩
  · rintro ⟨u, rfl, hu⟩
    exact MembersReordered.obj ⟨[(name, u)], .cons ⟨rfl, hu⟩ .nil, .refl _⟩

theorem sizeOf_lt_of_mem_items {items : List Json} {v : Json} (h : v ∈ items) :
    sizeOf v < sizeOf (Json.arr items) := by
  have hlt := List.sizeOf_lt_of_mem h
  simp only [Json.arr.sizeOf_spec]
  omega

theorem sizeOf_lt_of_mem_members {members : List (String × Json)} {m : String × Json}
    (h : m ∈ members) : sizeOf m.2 < sizeOf (Json.obj members) := by
  obtain ⟨name, v⟩ := m
  have hlt := List.sizeOf_lt_of_mem h
  simp only [Json.obj.sizeOf_spec, Prod.mk.sizeOf_spec] at hlt ⊢
  omega

/-- **Reordering goes both ways.** -/
theorem Reordered.symm {v v' : Json} (h : v.Reordered v') : v'.Reordered v := by
  match v with
  | .arr items =>
    obtain ⟨items', rfl, hitems⟩ := reordered_arr_iff.mp h
    exact .arr (.flip ((forall₂_with_mem hitems).imp fun a b hab => Reordered.symm hab.2))
  | .obj members =>
    obtain ⟨members', rfl, between, halike, hperm⟩ := reordered_obj_iff.mp h
    have hback : MembersAlike between members :=
      .flip ((forall₂_with_mem halike).imp fun m n hmn => ⟨hmn.2.1.symm, Reordered.symm hmn.2.2⟩)
    obtain ⟨between', hback', hperm'⟩ := List.perm_comp_forall₂ hperm.symm hback
    exact reordered_obj_iff.mpr ⟨members, rfl, between', hback', hperm'⟩
  | .null | .bool _ | .num _ | .str _ =>
    cases h
    exact .same _
termination_by sizeOf v
decreasing_by
  · exact sizeOf_lt_of_mem_items hab.1
  · exact sizeOf_lt_of_mem_members hmn.1

/-- **Reordered values have each name once as well.** -/
theorem Distinct.reordered {v v' : Json} (hv : v.Distinct) (h : v.Reordered v') : v'.Distinct := by
  match v with
  | .arr items =>
    obtain ⟨items', rfl, hitems⟩ := reordered_arr_iff.mp h
    cases hv with
    | arr hdistinct =>
      refine .arr (forall_of_forall₂_right ((forall₂_with_mem hitems).imp fun a b hab => ?_))
      exact Distinct.reordered (hdistinct a hab.1) hab.2
  | .obj members =>
    obtain ⟨members', rfl, between, halike, hperm⟩ := reordered_obj_iff.mp h
    cases hv with
    | obj hnames hdistinct =>
      have hbetween : ∀ n ∈ between, n.2.Distinct :=
        forall_of_forall₂_right ((forall₂_with_mem halike).imp fun m n hmn =>
          Distinct.reordered (hdistinct m hmn.1) hmn.2.2)
      rw [(Members.forall₂_iff.mp halike).1] at hnames
      refine .obj ((hperm.map Prod.fst).nodup_iff.mp hnames) fun m hm => ?_
      exact hbetween m (hperm.mem_iff.mpr hm)
  | .null | .bool _ | .num _ | .str _ =>
    cases h
    exact hv
termination_by sizeOf v
decreasing_by
  · exact sizeOf_lt_of_mem_items hab.1
  · exact sizeOf_lt_of_mem_members hmn.1

/-! ### Values without members -/

/-- A scalar, or a list of scalars. -/
inductive Flat : Json → Prop
  | scalar (s : Scalar) : Flat s.toJson
  | list (ss : List Scalar) : Flat (.arr (ss.map Scalar.toJson))

theorem eq_of_scalar_reordered {s : Scalar} {v : Json} (h : s.toJson.Reordered v) :
    v = s.toJson := by
  cases s <;> cases h <;> rfl

/-- **Flat values cannot be reordered.** -/
theorem Flat.eq_of_reordered {v v' : Json} (hv : v.Flat) (h : v.Reordered v') : v' = v := by
  cases hv with
  | scalar s => exact eq_of_scalar_reordered h
  | list ss =>
    obtain ⟨items', rfl, hitems⟩ := reordered_arr_iff.mp h
    rw [List.forall₂_map_left_iff] at hitems
    have hsame : List.Forall₂ (fun v s => v = Scalar.toJson s) items' ss :=
      .flip (hitems.imp fun s v => eq_of_scalar_reordered)
    rw [← List.forall₂_map_right_iff (R := Eq), List.forall₂_eq_eq_eq] at hsame
    rw [hsame]

end Json

end DocSearch
