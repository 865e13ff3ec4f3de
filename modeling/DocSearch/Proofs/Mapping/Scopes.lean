import DocSearch.Mapping

/-!
# Declarations and where they are found

A declaration is written into one scope, the one of an index or of an index and a type, and
for one field.  A search looks a field up in the scopes of its indices and types.  The name
of an index comes first in the name of each of its scopes, and ends at the first slash if it
has none itself.  So the scopes of two such indices are never the same, and a declaration
for one index is never found by a search over others.

## Main definitions

* `Mappings.declared?` — what a scope declares for a field.
* `Mappings.putAll` — write several declarations for an index.

## Main results

* `Mappings.declared?_put` — what a declaration changes.
* `Mappings.fieldType?_congr` — what a search looks up.
* `Mappings.scopeKey_injective` — which index a scope belongs to.
* `Mappings.fieldType?_putAll_of_index`, `Mappings.fieldType?_putAll_of_field` —
  **declarations are found by searches over their index and for their fields only**.
-/

namespace DocSearch.Mappings

variable {m m' : Mappings} {index : String} {docType : Option String}

/-! ### Scopes -/

/-- What a scope declares for a field. -/
def declared? (m : Mappings) (key field : String) : Option FieldType := (m.scope key).lookup field

theorem scope_put (m : Mappings) (index : String) (docType : Option String) (field : String)
    (type : FieldType) (key : String) :
    (m.put index docType field type).scope key =
      if key = scopeKey index docType then Members.put field type (m.scope key)
      else m.scope key := by
  unfold put scope
  rw [Members.lookup_put]
  by_cases hkey : key = scopeKey index docType
  · subst hkey
    rw [if_pos rfl, if_pos rfl]
    rfl
  · rw [if_neg hkey, if_neg hkey]

/-- **What a declaration changes**: one field in one scope. -/
theorem declared?_put (m : Mappings) (index : String) (docType : Option String) (field : String)
    (type : FieldType) (key other : String) :
    (m.put index docType field type).declared? key other =
      if key = scopeKey index docType ∧ other = field then some type
      else m.declared? key other := by
  unfold declared?
  rw [scope_put]
  by_cases hkey : key = scopeKey index docType
  · rw [if_pos hkey, Members.lookup_put]
    by_cases hother : other = field <;> simp [hkey, hother]
  · rw [if_neg hkey, if_neg fun h => hkey h.1]

/-- The name of an index is what its scopes begin with, up to the first slash. -/
theorem takeWhile_scopeKey (hindex : '/' ∉ index.toList) (docType : Option String) :
    (scopeKey index docType).toList.takeWhile (· != '/') = index.toList := by
  have hplain : ∀ c ∈ index.toList, (c != '/') = true := by
    intro c hc
    rw [bne_iff_ne]
    rintro rfl
    exact hindex hc
  obtain ⟨rest, hkey, hrest⟩ : ∃ rest, (scopeKey index docType).toList = index.toList ++ rest ∧
      rest.takeWhile (· != '/') = [] := by
    cases docType with
    | none => exact ⟨[], (List.append_nil _).symm, rfl⟩
    | some t => exact ⟨'/' :: t.toList, by simp [scopeKey], by simp⟩
  rw [hkey, List.takeWhile_append_of_pos hplain, hrest, List.append_nil]

/-- **A scope belongs to one index**, if the name of no index has a slash. -/
theorem scopeKey_injective {other : String} {docType' : Option String}
    (hindex : '/' ∉ index.toList) (hother : '/' ∉ other.toList)
    (h : scopeKey index docType = scopeKey other docType') : index = other := by
  apply String.toList_injective
  rw [← takeWhile_scopeKey hindex docType, h, takeWhile_scopeKey hother docType']

/-! ### Searches -/

/-- **What a search looks up**: the scopes of its indices, and those of its types in them. -/
theorem fieldType?_congr {indices : List String} (types : List String) {field : String}
    (h : ∀ index ∈ indices, ∀ docType,
      m.declared? (scopeKey index docType) field = m'.declared? (scopeKey index docType) field) :
    m.fieldType? indices types field = m'.fieldType? indices types field := by
  unfold fieldType?
  induction indices with
  | nil => rfl
  | cons index indices ih =>
    rw [List.forall_mem_cons] at h
    have hindex : (m.scope index).lookup field = (m'.scope index).lookup field := h.1 none
    have htypes : ∀ t, (m.scope (scopeKey index (some t))).lookup field =
        (m'.scope (scopeKey index (some t))).lookup field := fun t => h.1 (some t)
    simp only [List.findSome?_cons, hindex, htypes]
    rw [ih h.2]

/-! ### Several declarations -/

/-- Write several declarations for an index, or for one type of its documents. -/
def putAll (m : Mappings) (index : String) (docType : Option String) (fields : FieldTypes) :
    Mappings :=
  fields.foldl (fun m (field, type) => m.put index docType field type) m

/-- What is not written stays. -/
theorem declared?_putAll {fields : FieldTypes} {key other : String}
    (h : ∀ f ∈ fields, ¬ (key = scopeKey index docType ∧ other = f.1)) (m : Mappings) :
    (m.putAll index docType fields).declared? key other = m.declared? key other := by
  induction fields generalizing m with
  | nil => rfl
  | cons f fields ih =>
    rw [List.forall_mem_cons] at h
    refine (ih h.2 _).trans ?_
    rw [declared?_put, if_neg h.1]

/-- A search over other indices finds what it found. -/
theorem fieldType?_putAll_of_index {indices : List String} (hindex : '/' ∉ index.toList)
    (hindices : ∀ i ∈ indices, '/' ∉ i.toList) (hmem : index ∉ indices) (m : Mappings)
    (docType : Option String) (fields : FieldTypes) (types : List String) (field : String) :
    (m.putAll index docType fields).fieldType? indices types field =
      m.fieldType? indices types field := by
  apply fieldType?_congr
  intro i hi docType'
  apply declared?_putAll
  rintro f - ⟨hkey, -⟩
  have heq := scopeKey_injective (hindices i hi) hindex hkey
  exact hmem (heq ▸ hi)

/-- A search for another field finds what it found. -/
theorem fieldType?_putAll_of_field {fields : FieldTypes} {field : String}
    (hfield : field ∉ fields.map (·.1)) (m : Mappings) (index : String) (docType : Option String)
    (indices types : List String) :
    (m.putAll index docType fields).fieldType? indices types field =
      m.fieldType? indices types field := by
  apply fieldType?_congr
  intro i _ docType'
  apply declared?_putAll
  rintro f hf ⟨-, hname⟩
  exact hfield (hname ▸ List.mem_map_of_mem hf)

end DocSearch.Mappings
