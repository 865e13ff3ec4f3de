import DocSearch.Engine.Search
import DocSearch.Proofs.Engine.Run
import DocSearch.Proofs.Steps
import Mathlib.Data.List.Induction
import Mathlib.Data.List.Nodup

/-!
# The targets of a search

The targets of a search are the indices that it names, or all that there are, each with its
table.  The search is refused for the first name for which there is no index, so it has no
targets only if it is for all indices and there is none.  A name that is repeated is looked up
again and found again, and adds nothing.

## Main definitions

* `targetNames` — the names of the indices that a search is for.
* `Resolves` — what a list of names comes to.

## Main results

* `within_resolveTargets` — finding the targets only looks at the database.
* `mem_targetsFor` — **targets are indices that are named, with their tables**.
* `index_targetsFor` — **each index that is named is a target once**, in the order of the names.
* `targetsFor_eraseDups` — names that are repeated do not matter.
* `resolves_targetsFor` — a name without an index is what the search is refused for, and the
  first one is.
* `resolveTargets_eq_nil` — there are no targets only if there is no index at all.
-/

namespace DocSearch

open Steps

/-! ### Lists of names -/

section Names

variable {lookup : String → Except StoreError (Option String)} {names : List String}

theorem targetFor_eq_ok {index : String} {t : Target} (h : targetFor lookup index = .ok t) :
    t.index = index ∧ lookup index = .ok (some t.table) := by
  unfold targetFor at h
  split at h
  case h_1 table htable =>
    cases h
    exact ⟨rfl, htable⟩
  all_goals cases h

/-- **The targets of a list of names are indices that are named**, with their tables. -/
theorem mem_targetsFor {targets : List Target} (h : targetsFor lookup names = .ok targets) :
    ∀ t ∈ targets, t.index ∈ names ∧ lookup t.index = .ok (some t.table) := by
  refine foldlM_keeps_of_mem (I := fun targets : List Target =>
    ∀ t ∈ targets, t.index ∈ names ∧ lookup t.index = .ok (some t.table))
    (fun {targets after} index hindex hstep htargets => ?_) h fun t ht => nomatch ht
  obtain ⟨t, ht, hstep⟩ := bind_eq_ok.mp hstep
  obtain ⟨hname, htable⟩ := targetFor_eq_ok ht
  rw [pure_eq_ok] at hstep
  subst hstep
  split
  · exact htargets
  · intro u hu
    rcases List.mem_append.mp hu with hu | hu
    · exact htargets u hu
    · rw [List.mem_singleton.mp hu, hname]
      exact ⟨hindex, htable⟩

/-- One more name is looked up, whether it is repeated or not. -/
theorem targetsFor_concat (names : List String) (name : String) :
    targetsFor lookup (names ++ [name]) = (do
      let targets ← targetsFor lookup names
      let t ← targetFor lookup name
      return if targets.any (·.index == name) then targets else targets ++ [t]) := by
  simp only [targetsFor, List.foldlM_append, List.foldlM_cons, List.foldlM_nil, bind_pure]

theorem eraseDups_concat (names : List String) (name : String) :
    (names ++ [name]).eraseDups =
      if name ∈ names then names.eraseDups else names.eraseDups ++ [name] := by
  rw [List.eraseDups_append, List.removeAll]
  split
  case isTrue h => simp [h]
  case isFalse h => simp [h, List.eraseDups_cons]

theorem nodup_eraseDups (names : List String) : names.eraseDups.Nodup := by
  induction names using List.reverseRecOn with
  | nil => exact List.nodup_nil
  | append_singleton names name ih =>
    rw [eraseDups_concat]
    split
    case isTrue => exact ih
    case isFalse h =>
      refine ih.append (List.nodup_singleton name) (List.disjoint_singleton.mpr ?_)
      rwa [List.mem_eraseDups]

/-- **Each index that is named is a target once**, in the order in which it is named first. -/
theorem index_targetsFor {targets : List Target} (h : targetsFor lookup names = .ok targets) :
    targets.map (·.index) = names.eraseDups := by
  -- from the last name, which is a target already if it stands further ahead
  induction names using List.reverseRecOn generalizing targets with
  | nil =>
    cases h
    rfl
  | append_singleton names name ih =>
    rw [targetsFor_concat] at h
    obtain ⟨before, hbefore, h⟩ := bind_eq_ok.mp h
    obtain ⟨t, ht, h⟩ := bind_eq_ok.mp h
    rw [pure_eq_ok] at h
    have hindices := ih hbefore
    have hany : before.any (·.index == name) = true ↔ name ∈ names := by
      rw [← List.mem_eraseDups, ← hindices]
      simp
    rw [eraseDups_concat, ← h]
    by_cases hname : name ∈ names
    · rw [if_pos (hany.mpr hname), if_pos hname, hindices]
    · rw [if_neg fun h => hname (hany.mp h), if_neg hname, List.map_append, hindices,
        List.map_singleton, (targetFor_eq_ok ht).1]

/-- Every name of a list that has targets has a table. -/
theorem table_of_targetsFor {targets : List Target} (h : targetsFor lookup names = .ok targets)
    {name : String} (hname : name ∈ names) : ∃ table, lookup name = .ok (some table) := by
  rw [← List.mem_eraseDups, ← index_targetsFor h] at hname
  obtain ⟨t, ht, rfl⟩ := List.mem_map.mp hname
  exact ⟨t.table, (mem_targetsFor h t ht).2⟩

/-- **Names that are repeated do not matter.** -/
theorem targetsFor_eraseDups (lookup : String → Except StoreError (Option String))
    (names : List String) : targetsFor lookup names.eraseDups = targetsFor lookup names := by
  induction names using List.reverseRecOn with
  | nil => rfl
  | append_singleton names name ih =>
    rw [eraseDups_concat, targetsFor_concat]
    split
    case isFalse => rw [targetsFor_concat, ih]
    case isTrue hname =>
      rw [ih]
      cases htargets : targetsFor lookup names with
      | error e => rfl
      | ok targets =>
        -- the name has been found before, so it is found again
        obtain ⟨table, htable⟩ := table_of_targetsFor htargets hname
        have htarget : targetFor lookup name = .ok ⟨name, table⟩ := by rw [targetFor, htable]
        have hany : targets.any (·.index == name) = true := by
          rw [← List.mem_eraseDups, ← index_targetsFor htargets] at hname
          simpa using hname
        simp only [htarget, hany, if_true, bind, Except.bind]
        rfl

/-- There are no targets only if no index is named. -/
theorem targetsFor_eq_nil (h : targetsFor lookup names = .ok []) : names = [] := by
  refine List.eq_nil_iff_forall_not_mem.mpr fun name hname => ?_
  rw [← List.mem_eraseDups, ← index_targetsFor h] at hname
  cases hname

/-- What a list of names comes to: the failure for the first of them that has no table, or
targets with their tables, each index that is named once. -/
inductive Resolves (lookup : String → Except StoreError (Option String)) (names : List String) :
    Except ExecutionError (List Target) → Prop where
  /-- A name is unknown or not allowed, and those in front of it are not. -/
  | missing {before after : List String} {name : String} (names_eq : names = before ++ name :: after)
    (found : ∀ other ∈ before, ∃ table, lookup other = .ok (some table))
    (unknown : ∀ table, lookup name ≠ .ok (some table)) :
    Resolves lookup names (.error (.noSuchIndex name))
  /-- All names are known. -/
  | found {targets : List Target} (indices : targets.map (·.index) = names.eraseDups)
    (nodup : (targets.map (·.index)).Nodup)
    (tables : ∀ t ∈ targets, lookup t.index = .ok (some t.table)) :
    Resolves lookup names (.ok targets)

/-- No lookup fails but for a name that is not allowed. -/
def Answers (lookup : String → Except StoreError (Option String)) : Prop :=
  ∀ name e, lookup name = .error e → ∃ refused, e = .invalidIndexName refused

/-- A name without a table is refused as an index that is not there. -/
theorem targetFor_of_missing (hlookup : Answers lookup) {name : String}
    (h : ∀ table, lookup name ≠ .ok (some table)) :
    targetFor lookup name = .error (.noSuchIndex name) := by
  rw [targetFor]
  cases hname : lookup name with
  | ok found =>
    cases found with
    | none => rfl
    | some table => exact absurd hname (h table)
  | error e =>
    obtain ⟨refused, rfl⟩ := hlookup name e hname
    rfl

/-- **A list of names resolves**, if nothing else can fail. -/
theorem resolves_targetsFor (hlookup : Answers lookup) (names : List String) :
    Resolves lookup names (targetsFor lookup names) := by
  -- from the end, as the last name decides only if all names before it have been found
  induction names using List.reverseRecOn with
  | nil => exact .found rfl List.nodup_nil fun _ ht => nomatch ht
  | append_singleton names name ih =>
    cases htargets : targetsFor lookup names with
    | error e =>
      rw [htargets] at ih
      rw [targetsFor_concat, htargets]
      cases ih with
      | missing hnames hfound hunknown =>
        exact .missing (by rw [hnames, List.append_assoc]; rfl) hfound hunknown
    | ok targets =>
      by_cases hname : ∃ table, lookup name = .ok (some table)
      · obtain ⟨table, htable⟩ := hname
        have hall : ∃ targets, targetsFor lookup (names ++ [name]) = .ok targets := by
          rw [targetsFor_concat, htargets, targetFor, htable]
          exact ⟨_, rfl⟩
        obtain ⟨targets, hall⟩ := hall
        have hindices := index_targetsFor hall
        rw [hall]
        exact .found hindices (hindices ▸ nodup_eraseDups _) fun t ht => (mem_targetsFor hall t ht).2
      · rw [not_exists] at hname
        rw [targetsFor_concat, htargets, targetFor_of_missing hlookup hname]
        exact .missing rfl (fun _ hother => table_of_targetsFor htargets hother) hname

/-- A name for which there is no index makes the targets fail, if nothing else can. -/
theorem targetsFor_of_missing (hlookup : Answers lookup)
    (hmissing : ∃ index ∈ names, ∀ table, lookup index ≠ .ok (some table)) :
    ∃ index ∈ names, targetsFor lookup names = .error (.noSuchIndex index) := by
  have hresolves := resolves_targetsFor hlookup names
  cases htargets : targetsFor lookup names with
  | error e =>
    rw [htargets] at hresolves
    cases hresolves with
    | @missing _ _ name hnames =>
      exact ⟨name, hnames ▸ List.mem_append_right _ List.mem_cons_self, rfl⟩
  | ok targets =>
    obtain ⟨index, hindex, hunknown⟩ := hmissing
    obtain ⟨table, htable⟩ := table_of_targetsFor htargets hindex
    exact absurd htable (hunknown table)

end Names

/-! ### Databases -/

section Databases

variable {σ : Type} {b : Backend σ} {indices : List String} {w : World σ}

theorem meansAllIndices_iff :
    meansAllIndices indices = true ↔ indices = [] ∨ "_all" ∈ indices ∨ "*" ∈ indices := by
  simp [meansAllIndices, and_or_left, exists_or]

/-- The names of the indices that a search is for. -/
def targetNames (b : Backend σ) (indices : List String) (state : σ) :
    Except ExecutionError (List String) :=
  if meansAllIndices indices then (b.listIndices state).mapError .store else .ok indices

/-- **Finding the targets only looks at the database.** -/
theorem within_resolveTargets (b : Backend σ) (indices : List String) (w : World σ) :
    (resolveTargets b indices).within w =
      ((targetNames b indices w.state).bind (targetsFor fun index => b.tableFor index w.state),
        w) := by
  rw [resolveTargets, Run.within_bind, Run.within_read]
  simp only
  rw [Run.within_bind, Run.within_lift, ← targetNames]
  cases targetNames b indices w.state <;> rfl

/-- Finding the targets changes nothing. -/
theorem resolveTargets_world (indices : List String) (w : World σ) :
    ((resolveTargets b indices).within w).2 = w := by
  rw [within_resolveTargets]

/-- Names that are repeated do not matter to a search. -/
theorem resolveTargets_eraseDups (b : Backend σ) (indices : List String) :
    resolveTargets b indices.eraseDups = resolveTargets b indices := by
  have hall : meansAllIndices indices.eraseDups = meansAllIndices indices := by
    rw [Bool.eq_iff_iff, meansAllIndices_iff, meansAllIndices_iff]
    simp only [List.eq_nil_iff_forall_not_mem, List.mem_eraseDups]
  refine funext fun w => ?_
  have hwithin : (resolveTargets b indices.eraseDups).within w =
      (resolveTargets b indices).within w := by
    rw [within_resolveTargets, within_resolveTargets, targetNames, targetNames, hall]
    split
    case isTrue => rfl
    case isFalse =>
      show (targetsFor _ indices.eraseDups, w) = (targetsFor _ indices, w)
      rw [targetsFor_eraseDups]
  exact hwithin

/-- The targets of a search have tables in the database. -/
theorem tableFor_of_resolveTargets {targets : List Target}
    (h : ((resolveTargets b indices).within w).1 = .ok targets) :
    ∀ t ∈ targets, b.tableFor t.index w.state = .ok (some t.table) := by
  rw [within_resolveTargets] at h
  obtain ⟨names, -, htargets⟩ := bind_eq_ok.mp h
  exact fun t ht => (mem_targetsFor htargets t ht).2

/-- A search has no targets only if it is for all indices and there is none. -/
theorem resolveTargets_eq_nil (h : ((resolveTargets b indices).within w).1 = .ok []) :
    meansAllIndices indices = true ∧ b.listIndices w.state = .ok [] := by
  rw [within_resolveTargets] at h
  obtain ⟨names, hnames, htargets⟩ := bind_eq_ok.mp h
  obtain rfl : names = [] := targetsFor_eq_nil htargets
  unfold targetNames at hnames
  split at hnames
  case isTrue hall => exact ⟨hall, mapError_eq_ok.mp hnames⟩
  case isFalse hsome =>
    obtain rfl : indices = [] := Except.ok.inj hnames
    exact absurd rfl hsome

end Databases

end DocSearch
