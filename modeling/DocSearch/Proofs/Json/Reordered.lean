import DocSearch.Json.Basic
import DocSearch.Members
import Mathlib.Data.List.Forall2
import Mathlib.Data.List.Nodup

/-!
# Values that differ in the order of their members

Two values say the same if they differ only in the order in which their objects give their
members.  Writing members into an object keeps this: a member takes its place or goes to the
end, so the order in which members are written is seen in the order of the names only.

## Main definitions

* `Json.Reordered` — two values differ only in the order of members.
* `MembersReordered` — so do the members of two objects.

## Main results

* `Members.perm_putAll` — members with names of their own can be written in any order.
* `MembersReordered.putAll` — reordered members are written into an object.
-/

namespace DocSearch

namespace Members

variable {α : Type} {members more more' : List (String × α)}

theorem nodup_names_putAll (h : (names members).Nodup) (hmore : (names more).Nodup) :
    (names (putAll members more)).Nodup := by
  rw [names_putAll hmore]
  refine List.nodup_append.mpr ⟨h, hmore.filter _, fun a ha b hb hab => ?_⟩
  have hnew := of_decide_eq_true (List.mem_filter.mp hb).2
  exact hnew (hab ▸ ha)

theorem nodup_of_names (h : (names members).Nodup) : members.Nodup := .of_map Prod.fst h

/-- Where each name stands once, a member is found under its name. -/
theorem mem_iff_lookup (h : (names members).Nodup) (m : String × α) :
    m ∈ members ↔ members.lookup m.1 = some m.2 := by
  induction members with
  | nil => simp
  | cons first rest ih =>
    obtain ⟨key, value⟩ := first
    obtain ⟨hkey, hrest⟩ := List.nodup_cons.mp h
    obtain ⟨name, other⟩ := m
    rw [lookup_cons, List.mem_cons, ih hrest]
    by_cases hname : name = key
    · subst hname
      -- the name does not stand in the rest
      have hnone : rest.lookup name ≠ some other := fun hother =>
        have hmem : name ∈ names rest := List.mem_map_of_mem (f := Prod.fst) ((ih hrest).mpr hother)
        hkey hmem
      simp [hnone, eq_comm]
    · simp [hname]

/-- The value of a name after several members were written. -/
theorem lookup_putAll_eq (hmore : (names more).Nodup) (members : List (String × α))
    (name : String) : (putAll members more).lookup name =
      (more.lookup name).or (members.lookup name) := by
  by_cases hname : name ∈ names more
  · obtain ⟨⟨_, value⟩, hm, rfl⟩ := List.mem_map.mp hname
    have hvalue := (mem_iff_lookup hmore _).mp hm
    rw [lookup_putAll_of_mem hmore hm, hvalue]
    rfl
  · have hnone : more.lookup name = none := Option.eq_none_iff_forall_ne_some.mpr fun value hv =>
      hname (List.mem_map_of_mem (f := Prod.fst) ((mem_iff_lookup hmore (name, value)).mpr hv))
    rw [lookup_putAll hname, hnone]
    rfl

/-- Members are related one by one if their names are the same and their values are related. -/
theorem forall₂_iff {β : Type} {R : α → β → Prop} {others : List (String × β)} :
    List.Forall₂ (fun m n => m.1 = n.1 ∧ R m.2 n.2) members others ↔
      names members = names others ∧
        List.Forall₂ R (members.map Prod.snd) (others.map Prod.snd) := by
  induction members generalizing others with
  | nil => cases others <;> simp [names]
  | cons m rest ih =>
    cases others with
    | nil => simp [names]
    | cons n others =>
      rw [List.forall₂_cons, ih]
      simp only [names, List.map_cons, List.cons.injEq, List.forall₂_cons]
      tauto

/-- **Members with names of their own can be written in any order.** -/
theorem perm_putAll (h : (names members).Nodup) (hmore : (names more).Nodup)
    (hperm : more.Perm more') : (putAll members more).Perm (putAll members more') := by
  have hmore' : (names more').Nodup := (hperm.map Prod.fst).nodup_iff.mp hmore
  have hputAll := nodup_names_putAll h hmore
  have hputAll' := nodup_names_putAll h hmore'
  refine (List.perm_ext_iff_of_nodup (nodup_of_names hputAll) (nodup_of_names hputAll')).mpr
    fun m => ?_
  have hlookup : more.lookup m.1 = more'.lookup m.1 := by
    refine Option.ext fun value => ?_
    rw [← mem_iff_lookup hmore (m.1, value), ← mem_iff_lookup hmore' (m.1, value), hperm.mem_iff]
  rw [mem_iff_lookup hputAll, mem_iff_lookup hputAll', lookup_putAll_eq hmore,
    lookup_putAll_eq hmore', hlookup]

end Members

open Members

/-- Two values differ only in the order of the members of their objects. -/
inductive Json.Reordered : Json → Json → Prop where
  /-- They do not differ. -/
  | same (v : Json) : Reordered v v
  /-- Two arrays differ in the order of the members of their items. -/
  | arr {items items' : List Json} (h : List.Forall₂ Reordered items items') :
    Reordered (.arr items) (.arr items')
  /-- Two objects have members of the same names, in any order, whose values differ only in
  the order of members. -/
  | obj {members between members' : List (String × Json)} (hnames : names members = names between)
    (hvalues : List.Forall₂ Reordered (members.map Prod.snd) (between.map Prod.snd))
    (hperm : between.Perm members') : Reordered (.obj members) (.obj members')

/-- Members have the same names one by one, and values that differ only in the order of
members. -/
abbrev MembersAlike : List (String × Json) → List (String × Json) → Prop :=
  List.Forall₂ fun m n => m.1 = n.1 ∧ m.2.Reordered n.2

/-- Members stand in another order, and their values differ only in the order of members. -/
def MembersReordered (members members' : List (String × Json)) : Prop :=
  ∃ between, MembersAlike members between ∧ between.Perm members'

theorem MembersAlike.refl (members : List (String × Json)) : MembersAlike members members :=
  List.forall₂_same.mpr fun m _ => ⟨rfl, .same m.2⟩

theorem MembersReordered.obj {members members' : List (String × Json)}
    (h : MembersReordered members members') : (Json.obj members).Reordered (.obj members') := by
  obtain ⟨between, halike, hperm⟩ := h
  obtain ⟨hnames, hvalues⟩ := Members.forall₂_iff.mp halike
  exact .obj hnames hvalues hperm

theorem MembersAlike.put {members members' : List (String × Json)} {name : String}
    {value value' : Json} (h : MembersAlike members members') (hvalue : value.Reordered value') :
    MembersAlike (Members.put name value members) (Members.put name value' members') := by
  induction h with
  | nil => exact .cons ⟨rfl, hvalue⟩ .nil
  | @cons m n ms ns hm hrest ih =>
    obtain ⟨key, old⟩ := m
    obtain ⟨key', old'⟩ := n
    obtain ⟨rfl, hold⟩ : key = key' ∧ old.Reordered old' := hm
    by_cases hkey : key = name
    · rw [Members.put, Members.put, if_pos hkey, if_pos hkey]
      exact .cons ⟨rfl, hvalue⟩ hrest
    · rw [Members.put, Members.put, if_neg hkey, if_neg hkey]
      exact .cons ⟨rfl, hold⟩ ih

theorem MembersAlike.putAll {members members' more more' : List (String × Json)}
    (h : MembersAlike members members') (hmore : MembersAlike more more') :
    MembersAlike (Members.putAll members more) (Members.putAll members' more') := by
  induction hmore generalizing members members' with
  | nil => exact h
  | @cons m n ms ns hm _ ih =>
    obtain ⟨name, value⟩ := m
    obtain ⟨name', value'⟩ := n
    obtain ⟨rfl, hvalue⟩ : name = name' ∧ value.Reordered value' := hm
    exact ih (h.put hvalue)

/-- **Reordered members are written into an object.** -/
theorem MembersReordered.putAll {members more more' : List (String × Json)}
    (h : (names members).Nodup) (hmore : (names more).Nodup)
    (hreordered : MembersReordered more more') :
    MembersReordered (Members.putAll members more) (Members.putAll members more') := by
  obtain ⟨between, halike, hperm⟩ := hreordered
  rw [(Members.forall₂_iff.mp halike).1] at hmore
  exact ⟨Members.putAll members between, (MembersAlike.refl members).putAll halike,
    perm_putAll h hmore hperm⟩

end DocSearch
