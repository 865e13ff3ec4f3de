/-!
# Named members

A list of named values that remembers the order in which the names were first
written: a known name keeps its place and takes the new value, a new name goes to
the end.

## Main definitions

* `Members.put`, `Members.putAll` — write one member, or several.
* `Members.names` — the names in their order, with `names_put`, `names_putAll`,
  `lookup_put`, `lookup_putAll` and `lookup_putAll_of_mem`.
-/

namespace DocSearch.Members

variable {α : Type}

/-- The names in their order. -/
def names (members : List (String × α)) : List String := members.map Prod.fst

/-- Write the member `name`: in its place if it is there, at the end otherwise. -/
def put (name : String) (value : α) : List (String × α) → List (String × α)
  | [] => [(name, value)]
  | (key, old) :: rest =>
    if key = name then (key, value) :: rest else (key, old) :: put name value rest

/-- Write the members of `more` one after the other. -/
def putAll (members more : List (String × α)) : List (String × α) :=
  more.foldl (fun acc (name, value) => put name value acc) members

@[simp] theorem put_nil (name : String) (value : α) : put name value [] = [(name, value)] := rfl

@[simp] theorem putAll_nil (members : List (String × α)) : putAll members [] = members := rfl

theorem names_put (name : String) (value : α) (members : List (String × α)) :
    names (put name value members)
      = if name ∈ names members then names members else names members ++ [name] := by
  induction members with
  | nil => simp [names]
  | cons m rest ih =>
    obtain ⟨key, old⟩ := m
    by_cases h : key = name
    · simp [put, names, h]
    · have h' : name ≠ key := fun e => h e.symm
      have ih' : (put name value rest).map Prod.fst
          = if name ∈ rest.map Prod.fst then rest.map Prod.fst
            else rest.map Prod.fst ++ [name] := ih
      simp only [put, h, if_false, names, List.map_cons, ih', List.mem_cons, h', false_or]
      split <;> simp

/-- The names that are there keep their places, and the new ones follow in their order. -/
theorem names_putAll {more : List (String × α)} (h : (names more).Nodup)
    (members : List (String × α)) :
    names (putAll members more)
      = names members ++ (names more).filter fun name => decide (name ∉ names members) := by
  induction more generalizing members with
  | nil => simp [names]
  | cons m more ih =>
    obtain ⟨name, value⟩ := m
    obtain ⟨hname, hmore⟩ := List.nodup_cons.mp h
    have hrest := ih hmore (put name value members)
    rw [names_put] at hrest
    refine hrest.trans ?_
    by_cases hold : name ∈ names members
    · have hmem : name ∈ members.map Prod.fst := hold
      rw [if_pos hold]
      simp [names, hmem]
    · rw [if_neg hold, List.append_assoc]
      have hnew : decide (name ∉ names members) = true := decide_eq_true hold
      have hcons : names ((name, value) :: more) = name :: names more := rfl
      rw [hcons, List.filter_cons, if_pos hnew]
      -- among the names that follow, none is the one just written
      have hfilter : ((names more).filter fun n => decide (n ∉ names members ++ [name]))
          = (names more).filter fun n => decide (n ∉ names members) := by
        refine List.filter_congr fun n hn => ?_
        have hne : n ≠ name := fun e => hname (e ▸ hn)
        simp [hne]
      rw [hfilter]
      rfl

theorem lookup_cons (name key : String) (value : α) (rest : List (String × α)) :
    ((key, value) :: rest).lookup name = if name = key then some value else rest.lookup name := by
  by_cases h : name = key
  · simp [h]
  · rw [List.lookup_cons, beq_eq_false_iff_ne.mpr h, if_neg h]

theorem lookup_put (name : String) (value : α) (members : List (String × α)) (other : String) :
    (put name value members).lookup other =
      if other = name then some value else members.lookup other := by
  induction members with
  | nil => exact lookup_cons other name value []
  | cons m rest ih =>
    obtain ⟨key, old⟩ := m
    by_cases hkey : key = name
    · subst hkey
      rw [put, if_pos rfl, lookup_cons, lookup_cons]
      split <;> rfl
    · rw [put, if_neg hkey, lookup_cons, lookup_cons, ih]
      by_cases h : other = key
      · rw [if_pos h, if_pos h, if_neg (h ▸ hkey)]
      · rw [if_neg h, if_neg h]

/-- A name that is not written keeps its value. -/
theorem lookup_putAll {name : String} {more : List (String × α)} (h : name ∉ names more)
    (members : List (String × α)) : (putAll members more).lookup name = members.lookup name := by
  induction more generalizing members with
  | nil => rfl
  | cons m more ih =>
    obtain ⟨key, value⟩ := m
    rw [names, List.map_cons, List.mem_cons, not_or] at h
    have hput : (put key value members).lookup name = members.lookup name := by
      rw [lookup_put, if_neg h.1]
    exact (ih h.2 _).trans hput

/-- A name that is written once has the value that was written. -/
theorem lookup_putAll_of_mem {more : List (String × α)} (h : (names more).Nodup) {m : String × α}
    (hm : m ∈ more) (members : List (String × α)) :
    (putAll members more).lookup m.1 = some m.2 := by
  induction more generalizing members with
  | nil => cases hm
  | cons first more ih =>
    obtain ⟨hfirst, hmore⟩ := List.nodup_cons.mp h
    rcases List.mem_cons.mp hm with rfl | hm
    · refine (lookup_putAll hfirst _).trans ?_
      rw [lookup_put, if_pos rfl]
    · exact ih hmore hm _

end DocSearch.Members
