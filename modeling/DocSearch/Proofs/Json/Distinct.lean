import DocSearch.Json.Reader

/-!
# Objects have each name once

An object of a text may repeat a name.  The reader keeps the first place and the last
value, so no object of the value that it gives has a name twice, however deep it lies.

## Main definitions

* `Json.Distinct` — no object in a value has a name twice.

## Main results

* `Json.distinct_of_read` — what is read from a text is such a value.
-/

namespace DocSearch

namespace Members

variable {α : Type}

theorem nodup_names_put {members : List (String × α)} (h : (names members).Nodup) (name : String)
    (value : α) : (names (put name value members)).Nodup := by
  rw [names_put]
  split
  · exact h
  · next hname =>
    refine List.nodup_append.mpr ⟨h, List.nodup_cons.mpr ⟨by simp, List.nodup_nil⟩, ?_⟩
    intro a ha b hb hab
    rw [List.mem_singleton] at hb
    subst hab hb
    exact hname ha

/-- What is written is there under its name, and everything else was there before. -/
theorem mem_put {name : String} {value : α} {members : List (String × α)} {m : String × α}
    (h : m ∈ put name value members) : m = (name, value) ∨ m ∈ members := by
  induction members with
  | nil =>
    rw [put_nil, List.mem_singleton] at h
    exact .inl h
  | cons first rest ih =>
    obtain ⟨key, old⟩ := first
    by_cases hkey : key = name
    · rw [put, if_pos hkey, hkey] at h
      rcases List.mem_cons.mp h with rfl | h
      · exact .inl rfl
      · exact .inr (List.mem_cons_of_mem _ h)
    · rw [put, if_neg hkey] at h
      rcases List.mem_cons.mp h with rfl | h
      · exact .inr List.mem_cons_self
      · exact (ih h).imp_right (List.mem_cons_of_mem _)

end Members

/-! ### Distinct names -/

/-- No object in a value has a name twice. -/
inductive Json.Distinct : Json → Prop where
  /-- Of `null`. -/
  | null : Distinct .null
  /-- Of a truth value. -/
  | bool (b : Bool) : Distinct (.bool b)
  /-- Of a number. -/
  | num (n : Number) : Distinct (.num n)
  /-- Of a string. -/
  | str (s : String) : Distinct (.str s)
  /-- Of an array. -/
  | arr {items : List Json} (hitems : ∀ v ∈ items, Distinct v) : Distinct (.arr items)
  /-- Of an object. -/
  | obj {members : List (String × Json)} (hnames : (Members.names members).Nodup)
    (hmembers : ∀ m ∈ members, Distinct m.2) : Distinct (.obj members)

/-- Members of an object so far: each name once, and the values distinct in themselves. -/
def DistinctMembers (members : List (String × Json)) : Prop :=
  (Members.names members).Nodup ∧ ∀ m ∈ members, m.2.Distinct

theorem DistinctMembers.nil : DistinctMembers [] := ⟨List.nodup_nil, fun _ hm => nomatch hm⟩

theorem DistinctMembers.put {members : List (String × Json)} (h : DistinctMembers members)
    (name : String) {value : Json} (hvalue : value.Distinct) :
    DistinctMembers (Members.put name value members) := by
  refine ⟨Members.nodup_names_put h.1 name value, fun m hm => ?_⟩
  rcases Members.mem_put hm with rfl | hm
  · exact hvalue
  · exact h.2 m hm

theorem Json.distinct_obj_iff {members : List (String × Json)} :
    (Json.obj members).Distinct ↔ DistinctMembers members := by
  constructor
  · rintro (_ | _ | _ | _ | _ | ⟨hnames, hmembers⟩)
    exact ⟨hnames, hmembers⟩
  · rintro ⟨hnames, hmembers⟩
    exact .obj hnames hmembers

theorem Json.distinct_singleton_iff {name : String} {v : Json} :
    (Json.obj [(name, v)]).Distinct ↔ v.Distinct := by
  simp [distinct_obj_iff, DistinctMembers, Members.names]

/-- The three parts of the reader give distinct values with a given amount of fuel. -/
def ReadsDistinct (fuel : Nat) : Prop :=
  (∀ {depth cs v rest}, readValue fuel depth cs = some (v, rest) → v.Distinct) ∧
  (∀ {depth cs items rest}, readItems fuel depth cs = some (items, rest) →
    ∀ v ∈ items, v.Distinct) ∧
  (∀ {depth acc cs members rest}, readMembers fuel depth acc cs = some (members, rest) →
    DistinctMembers acc → DistinctMembers members)

theorem readValue_distinct {fuel : Nat} (ih : ReadsDistinct fuel) {depth : Nat} {cs : List Char}
    {v : Json} {rest : List Char} (h : readValue (fuel + 1) depth cs = some (v, rest)) :
    v.Distinct := by
  obtain ⟨-, hitems, hmembers⟩ := ih
  rw [readValue] at h
  split at h
  · cases h
    exact .null
  · cases h
    exact .bool true
  · cases h
    exact .bool false
  · obtain ⟨s, -, h⟩ := Option.bind_eq_some_iff.mp h
    cases h
    exact .str _
  · split at h
    · cases h
    split at h
    · cases h
      exact .arr fun _ hv => nomatch hv
    · obtain ⟨⟨items, rest'⟩, hread, h⟩ := Option.bind_eq_some_iff.mp h
      cases h
      exact .arr (hitems hread)
  · split at h
    · cases h
    split at h
    · cases h
      exact .obj List.nodup_nil fun _ hm => nomatch hm
    · obtain ⟨⟨members, rest'⟩, hread, h⟩ := Option.bind_eq_some_iff.mp h
      cases h
      -- members are put under their names one by one, starting from none
      have hdistinct := hmembers hread .nil
      exact .obj hdistinct.1 hdistinct.2
  · obtain ⟨n, -, h⟩ := Option.bind_eq_some_iff.mp h
    cases h
    exact .num _

theorem readItems_distinct {fuel : Nat} (ih : ReadsDistinct fuel) {depth : Nat} {cs : List Char}
    {items : List Json} {rest : List Char}
    (h : readItems (fuel + 1) depth cs = some (items, rest)) : ∀ v ∈ items, v.Distinct := by
  obtain ⟨hvalue, hitems, -⟩ := ih
  rw [readItems] at h
  obtain ⟨⟨item, behind⟩, hitem, h⟩ := Option.bind_eq_some_iff.mp h
  have hfirst : item.Distinct := hvalue hitem
  simp only at h
  split at h
  · obtain ⟨⟨others, rest'⟩, hothers, h⟩ := Option.bind_eq_some_iff.mp h
    cases h
    exact List.forall_mem_cons.mpr ⟨hfirst, hitems hothers⟩
  · cases h
    exact List.forall_mem_singleton.mpr hfirst
  · cases h

theorem readMembers_distinct {fuel : Nat} (ih : ReadsDistinct fuel) {depth : Nat}
    {acc : List (String × Json)} {cs : List Char} {members : List (String × Json)}
    {rest : List Char} (h : readMembers (fuel + 1) depth acc cs = some (members, rest))
    (hacc : DistinctMembers acc) : DistinctMembers members := by
  obtain ⟨hvalue, -, hmembers⟩ := ih
  rw [readMembers] at h
  obtain ⟨⟨name, behind⟩, -, h⟩ := Option.bind_eq_some_iff.mp h
  obtain ⟨⟨value, behind'⟩, hread, h⟩ := Option.bind_eq_some_iff.mp h
  have hput : DistinctMembers (Members.put name value acc) := hacc.put name (hvalue hread)
  simp only at h
  split at h
  · exact hmembers h hput
  · cases h
    exact hput
  · cases h

theorem readsDistinct (fuel : Nat) : ReadsDistinct fuel := by
  induction fuel with
  | zero =>
    refine ⟨fun h => ?_, fun h => ?_, fun h => ?_⟩
    · simp [readValue] at h
    · simp [readItems] at h
    · simp [readMembers] at h
  | succ fuel ih => exact ⟨readValue_distinct ih, readItems_distinct ih, readMembers_distinct ih⟩

/-- **What is read has each name once**, in every object. -/
theorem Json.distinct_of_read {s : String} {v : Json} (h : Json.read s = some v) :
    v.Distinct := by
  rw [Json.read] at h
  obtain ⟨⟨value, rest⟩, hread, h⟩ := Option.bind_eq_some_iff.mp h
  simp only at h
  split at h
  · cases h
    exact (readsDistinct _).1 hread
  · cases h

end DocSearch
