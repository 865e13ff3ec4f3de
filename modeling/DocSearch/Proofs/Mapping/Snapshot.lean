import DocSearch.Proofs.Json.Distinct
import DocSearch.Proofs.Json.Reordered
import DocSearch.Proofs.Mapping.Scopes
import DocSearch.Proofs.Store.Indices
import Mathlib.Data.List.Induction
import Mathlib.Data.List.Perm.Basic

/-!
# What is reported of an index

The report of an index brings the declarations of all its scopes into one list of fields, the
declarations of a later scope over those of an earlier one.  The scopes have no order of their
own: a report may visit them in any order, and so it is described here for every order at once.

A field is reported exactly if some scope of the index declares it, with a type that one of
them declares.  Which one depends on the order, so the type that a search uses is sure to be
reported only where no scope of the index declares another one.

## Main definitions

* `Mappings.Put`, `Mappings.ofPuts` — declarations that are made one after the other.
* `Mappings.latest?` — the type that was declared last for a field in a scope.
* `Mappings.IsKept` — every scope, and every field within a scope, stands once.

## Main results

* `Mappings.declared?_ofPuts` — what a scope declares is what was declared last.
* `Mappings.belongsTo_scopeKey` — the scopes of an index.
* `Mappings.lookup_snapshot` — a report shows the last scope that declares a field.
* `Mappings.exists_snapshot_iff` — over all orders, every declared type is reported.
* `Mappings.snapshot_reports` — **what is reported of a field**, in which order ever.
* `Mappings.snapshot_differs_from_search` — a type may hide what a search uses.
-/

namespace DocSearch.Mappings

variable {m : Mappings} {index field : String} {docType : Option String}

/-! ### Declarations one after the other -/

/-- A declaration of a field, for an index or for one type of its documents. -/
structure Put where
  /-- The index. -/
  index : String
  /-- The type of its documents, if the declaration is for one. -/
  docType : Option String
  /-- The field. -/
  field : String
  /-- What it is declared to be. -/
  type : FieldType

/-- Declarations that are made one after the other. -/
def ofPuts (puts : List Put) : Mappings :=
  puts.foldl (fun m p => m.put p.index p.docType p.field p.type) empty

/-- The type that was declared last for a field of an index, or of one type of its documents. -/
def latest? (puts : List Put) (index : String) (docType : Option String) (field : String) :
    Option FieldType :=
  puts.reverse.findSome? fun p =>
    if p.index = index ∧ p.docType = docType ∧ p.field = field then some p.type else none

theorem ofPuts_concat (puts : List Put) (p : Put) :
    ofPuts (puts ++ [p]) = (ofPuts puts).put p.index p.docType p.field p.type := by
  rw [ofPuts, List.foldl_append]
  rfl

theorem latest?_concat (puts : List Put) (p : Put) :
    latest? (puts ++ [p]) index docType field =
      if p.index = index ∧ p.docType = docType ∧ p.field = field then some p.type
      else latest? puts index docType field := by
  rw [latest?, List.reverse_append]
  by_cases h : p.index = index ∧ p.docType = docType ∧ p.field = field
  · rw [if_pos h]
    simp [h]
  · rw [if_neg h]
    simp [h, latest?]

/-- A scope says for which index and type it is. -/
theorem scopeKey_inj {other : String} {docType' : Option String} (hindex : '/' ∉ index.toList)
    (hother : '/' ∉ other.toList) :
    scopeKey index docType = scopeKey other docType' ↔ index = other ∧ docType = docType' := by
  constructor
  · intro h
    have heq := scopeKey_injective hindex hother h
    subst heq
    refine ⟨rfl, ?_⟩
    have htoList := congrArg String.toList h
    cases docType <;> cases docType' <;> simp [scopeKey] at htoList ⊢
    exact String.toList_injective htoList
  · rintro ⟨rfl, rfl⟩
    rfl

/-- **What a scope declares is what was declared last for it.** -/
theorem declared?_ofPuts {puts : List Put} (hputs : ∀ p ∈ puts, '/' ∉ p.index.toList)
    (hindex : '/' ∉ index.toList) (docType : Option String) (field : String) :
    (ofPuts puts).declared? (scopeKey index docType) field = latest? puts index docType field := by
  induction puts using List.reverseRecOn with
  | nil => rfl
  | append_singleton puts p ih =>
    rw [List.forall_mem_append, List.forall_mem_singleton] at hputs
    rw [ofPuts_concat, latest?_concat, declared?_put, ih hputs.1]
    refine if_congr ?_ rfl rfl
    rw [scopeKey_inj hindex hputs.2, and_assoc, eq_comm, eq_comm (a := docType), eq_comm (a := field)]

/-- Something was declared last exactly if anything was declared. -/
theorem exists_latest?_iff {puts : List Put} :
    (∃ docType t, latest? puts index docType field = some t) ↔
      ∃ p ∈ puts, p.index = index ∧ p.field = field := by
  simp only [← Option.isSome_iff_exists, latest?, List.findSome?_isSome_iff, List.mem_reverse]
  constructor
  · rintro ⟨docType, p, hp, hsome⟩
    split at hsome
    · next h => exact ⟨p, hp, h.1, h.2.2⟩
    · cases hsome
  · rintro ⟨p, hp, hindex, hfield⟩
    exact ⟨p.docType, p, hp, by rw [if_pos ⟨hindex, rfl, hfield⟩]; rfl⟩

/-! ### Scopes and fields stand once -/

/-- Whether every scope, and every field within a scope, stands once. -/
structure IsKept (m : Mappings) : Prop where
  scopes : (Members.names m.scopes).Nodup
  fields : ∀ s ∈ m.scopes, (Members.names s.2).Nodup

theorem IsKept.scope_of_mem (h : m.IsKept) {s : String × FieldTypes} (hs : s ∈ m.scopes) :
    m.scope s.1 = s.2 := by
  rw [scope, (Members.mem_iff_lookup h.scopes s).mp hs]
  rfl

theorem IsKept.nodup_scope (h : m.IsKept) (key : String) : (Members.names (m.scope key)).Nodup := by
  rw [scope]
  cases hfields : m.scopes.lookup key with
  | none => exact List.nodup_nil
  | some fields => exact h.fields (key, fields) ((Members.mem_iff_lookup h.scopes _).mpr hfields)

theorem IsKept.put (h : m.IsKept) (index : String) (docType : Option String) (field : String)
    (type : FieldType) : (m.put index docType field type).IsKept where
  scopes := Members.nodup_names_put h.scopes _ _
  fields := by
    intro s hs
    rcases Members.mem_put hs with rfl | hs
    · exact Members.nodup_names_put (h.nodup_scope _) _ _
    · exact h.fields s hs

theorem isKept_ofPuts (puts : List Put) : (ofPuts puts).IsKept := by
  induction puts using List.reverseRecOn with
  | nil => exact ⟨List.nodup_nil, nofun⟩
  | append_singleton puts p ih =>
    rw [ofPuts_concat]
    exact ih.put _ _ _ _

/-- The order of the scopes does not matter to what they declare. -/
theorem IsKept.of_perm (h : m.IsKept) {order : List (String × FieldTypes)}
    (horder : order.Perm m.scopes) : IsKept ⟨order⟩ where
  scopes := (horder.map Prod.fst).nodup_iff.mpr h.scopes
  fields := fun s hs => h.fields s (horder.mem_iff.mp hs)

theorem IsKept.scope_of_perm (h : m.IsKept) {order : List (String × FieldTypes)}
    (horder : order.Perm m.scopes) (key : String) : scope ⟨order⟩ key = m.scope key := by
  have hlookup : order.lookup key = m.scopes.lookup key := by
    refine Option.ext fun fields => ?_
    rw [← Members.mem_iff_lookup (h.of_perm horder).scopes (key, fields),
      ← Members.mem_iff_lookup h.scopes (key, fields), horder.mem_iff]
  rw [scope, scope, hlookup]

/-! ### The scopes of an index -/

theorem exists_put_of_mem_scopes {puts : List Put} {s : String × FieldTypes}
    (hs : s ∈ (ofPuts puts).scopes) : ∃ p ∈ puts, s.1 = scopeKey p.index p.docType := by
  induction puts using List.reverseRecOn generalizing s with
  | nil => cases hs
  | append_singleton puts p ih =>
    rw [ofPuts_concat] at hs
    rcases Members.mem_put hs with rfl | hs
    · exact ⟨p, by simp, rfl⟩
    · obtain ⟨q, hq, hkey⟩ := ih hs
      exact ⟨q, List.mem_append_left _ hq, hkey⟩

/-- **The scopes of an index** are its own and those of its types. -/
theorem belongsTo_scopeKey {other : String} (hindex : '/' ∉ index.toList)
    (hother : '/' ∉ other.toList) (docType : Option String) :
    belongsTo index (scopeKey other docType) = true ↔ other = index := by
  rw [belongsTo, Bool.or_eq_true, beq_iff_eq, List.isPrefixOf_iff_prefix]
  constructor
  · rintro (hkey | ⟨rest, hkey⟩)
    · have hkey : scopeKey other docType = scopeKey index none := hkey
      exact scopeKey_injective hother hindex hkey
    · have hkey : scopeKey index (some (String.ofList rest)) = scopeKey other docType := by
        apply String.toList_injective
        simpa [scopeKey] using hkey
      exact (scopeKey_injective hindex hother hkey).symm
  · rintro rfl
    cases docType with
    | none => exact .inl rfl
    | some t => exact .inr ⟨t.toList, by simp [scopeKey]⟩

/-- What the scopes of an index declare is what was declared last for the index or its types. -/
theorem exists_scope_iff {puts : List Put} (hputs : ∀ p ∈ puts, '/' ∉ p.index.toList)
    (hindex : '/' ∉ index.toList) {t : FieldType} :
    (∃ s ∈ (ofPuts puts).scopes, belongsTo index s.1 = true ∧ s.2.lookup field = some t) ↔
      ∃ docType, latest? puts index docType field = some t := by
  have hkept := isKept_ofPuts puts
  constructor
  · rintro ⟨s, hs, hbelongs, hfield⟩
    obtain ⟨p, hp, hkey⟩ := exists_put_of_mem_scopes hs
    have hp := hputs p hp
    rw [hkey, belongsTo_scopeKey hindex hp] at hbelongs
    refine ⟨p.docType, ?_⟩
    rw [← declared?_ofPuts hputs hindex, declared?, ← hbelongs, ← hkey, hkept.scope_of_mem hs, hfield]
  · rintro ⟨docType, ht⟩
    rw [← declared?_ofPuts hputs hindex, declared?, scope] at ht
    cases hfields : (ofPuts puts).scopes.lookup (scopeKey index docType) with
    | none =>
      rw [hfields] at ht
      cases ht
    | some fields =>
      rw [hfields] at ht
      exact ⟨_, (Members.mem_iff_lookup hkept.scopes (_, fields)).mpr hfields,
        (belongsTo_scopeKey hindex hindex docType).mpr rfl, ht⟩

/-! ### Reports -/

theorem lookup_foldl_putAll {scopes : List (String × FieldTypes)}
    (h : ∀ s ∈ scopes, (Members.names s.2).Nodup) (acc : FieldTypes) (field : String) :
    (scopes.foldl (fun acc s => Members.putAll acc s.2) acc).lookup field =
      (scopes.reverse.findSome? fun s => s.2.lookup field).or (acc.lookup field) := by
  induction scopes generalizing acc with
  | nil => rfl
  | cons s scopes ih =>
    rw [List.forall_mem_cons] at h
    rw [List.foldl_cons, ih h.2, Members.lookup_putAll_eq h.1, List.reverse_cons,
      List.findSome?_append, Option.or_assoc, List.findSome?_singleton]

/-- **A report shows the last scope that declares a field.** -/
theorem lookup_snapshot (h : m.IsKept) (index field : String) :
    (m.snapshot index).lookup field =
      ((m.scopes.filter fun s => belongsTo index s.1).reverse.findSome? fun s =>
        s.2.lookup field) := by
  have hfold := lookup_foldl_putAll
    (fun s hs => h.fields s (List.mem_of_mem_filter (p := fun s => belongsTo index s.1) hs)) [] field
  exact hfold.trans Option.or_none

/-- A report names each field once. -/
theorem nodup_names_snapshot (h : m.IsKept) (index : String) :
    (Members.names (m.snapshot index)).Nodup := by
  have hfold : ∀ (scopes : List (String × FieldTypes)) (acc : FieldTypes),
      (∀ s ∈ scopes, (Members.names s.2).Nodup) → (Members.names acc).Nodup →
      (Members.names (scopes.foldl (fun acc s => Members.putAll acc s.2) acc)).Nodup := by
    intro scopes
    induction scopes with
    | nil => exact fun acc _ hacc => hacc
    | cons s scopes ih =>
      intro acc hscopes hacc
      rw [List.forall_mem_cons] at hscopes
      exact ih _ hscopes.2 (Members.nodup_names_putAll hacc hscopes.1)
  exact hfold _ _ (fun s hs => h.fields s (List.mem_of_mem_filter hs)) List.nodup_nil

theorem exists_lookup_snapshot_iff (h : m.IsKept) :
    (∃ t, (m.snapshot index).lookup field = some t) ↔
      ∃ t, ∃ s ∈ m.scopes, belongsTo index s.1 = true ∧ s.2.lookup field = some t := by
  rw [← Option.isSome_iff_exists, lookup_snapshot h, List.findSome?_isSome_iff]
  simp only [List.mem_reverse, List.mem_filter, Option.isSome_iff_exists]
  constructor
  · rintro ⟨s, ⟨hs, hbelongs⟩, t, ht⟩
    exact ⟨t, s, hs, hbelongs, ht⟩
  · rintro ⟨t, s, hs, hbelongs, ht⟩
    exact ⟨s, ⟨hs, hbelongs⟩, t, ht⟩

/-- **Over all orders, every declared type is reported**, and no other one. -/
theorem exists_snapshot_iff (h : m.IsKept) {t : FieldType} :
    (∃ order, order.Perm m.scopes ∧ (snapshot ⟨order⟩ index).lookup field = some t) ↔
      ∃ s ∈ m.scopes, belongsTo index s.1 = true ∧ s.2.lookup field = some t := by
  constructor
  · rintro ⟨order, horder, ht⟩
    rw [lookup_snapshot (h.of_perm horder)] at ht
    obtain ⟨s, hs, ht⟩ := List.exists_of_findSome?_eq_some ht
    obtain ⟨hs, hbelongs⟩ := List.mem_filter.mp (List.mem_reverse.mp hs)
    exact ⟨s, horder.mem_iff.mp hs, hbelongs, ht⟩
  · rintro ⟨s, hs, hbelongs, ht⟩
    -- the order that visits this scope last
    obtain ⟨before, after, hscopes⟩ := List.append_of_mem hs
    have horder : (before ++ after ++ [s]).Perm m.scopes := by
      rw [hscopes]
      exact List.perm_append_singleton s (before ++ after) |>.trans List.perm_middle.symm
    refine ⟨_, horder, ?_⟩
    rw [lookup_snapshot (h.of_perm horder), List.filter_append, List.reverse_append,
      List.filter_singleton, hbelongs]
    exact List.findSome?_cons_of_isSome (by simp [ht]) |>.trans ht

/-- A search over one index and no types looks a field up in the scope of the index. -/
theorem fieldType?_singleton (m : Mappings) (index field : String) :
    m.fieldType? [index] [] field = m.declared? index field := by
  simp [fieldType?, declared?]

/-- **What is reported of a field**, in whichever order the scopes are visited.  It is reported
exactly if it is declared for the index or one of its types, and over all orders with exactly the
types that were declared last in these scopes.  So what a search over the index uses is reported
in every order exactly if no type of the index declares anything else. -/
theorem snapshot_reports {puts : List Put} (hputs : ∀ p ∈ puts, '/' ∉ p.index.toList)
    {index : String} (hindex : '/' ∉ index.toList) (field : String) :
    (∀ order, order.Perm (ofPuts puts).scopes →
      (Members.names (snapshot ⟨order⟩ index)).Nodup ∧
      (field ∈ Members.names (snapshot ⟨order⟩ index) ↔
        ∃ p ∈ puts, p.index = index ∧ p.field = field) ∧
      fieldType? ⟨order⟩ [index] [] field = latest? puts index none field) ∧
    (∀ t, (∃ order, order.Perm (ofPuts puts).scopes ∧
        (snapshot ⟨order⟩ index).lookup field = some t) ↔
      ∃ docType, latest? puts index docType field = some t) ∧
    ∀ t, latest? puts index none field = some t →
      ((∀ order, order.Perm (ofPuts puts).scopes →
          (snapshot ⟨order⟩ index).lookup field = fieldType? ⟨order⟩ [index] [] field) ↔
        ∀ docType t', latest? puts index docType field = some t' → t' = t) := by
  have hkept := isKept_ofPuts puts
  -- a search looks up one scope by its key, whereas a report visits all scopes of the index
  have hsearch : ∀ order, order.Perm (ofPuts puts).scopes →
      fieldType? ⟨order⟩ [index] [] field = latest? puts index none field := by
    intro order horder
    rw [fieldType?_singleton, declared?, hkept.scope_of_perm horder, ← declared?_ofPuts hputs hindex]
    rfl
  have hreported : ∀ order, order.Perm (ofPuts puts).scopes →
      ((∃ t, (snapshot ⟨order⟩ index).lookup field = some t) ↔
        ∃ t docType, latest? puts index docType field = some t) := by
    intro order horder
    rw [exists_lookup_snapshot_iff (hkept.of_perm horder)]
    simp only [horder.mem_iff, exists_scope_iff hputs hindex]
  have htypes : ∀ t, (∃ order, order.Perm (ofPuts puts).scopes ∧
      (snapshot ⟨order⟩ index).lookup field = some t) ↔
        ∃ docType, latest? puts index docType field = some t :=
    fun t => (exists_snapshot_iff hkept).trans (exists_scope_iff hputs hindex)
  refine ⟨fun order horder => ⟨nodup_names_snapshot (hkept.of_perm horder) index, ?_,
    hsearch order horder⟩, htypes, fun t ht => ⟨fun hall docType t' ht' => ?_, fun hall order horder => ?_⟩⟩
  · rw [← Members.isSome_lookup, Option.isSome_iff_exists, hreported order horder, exists_comm,
      exists_latest?_iff]
  · obtain ⟨order, horder, hreport⟩ := (htypes t').mpr ⟨docType, ht'⟩
    rw [hall order horder, hsearch order horder, ht] at hreport
    exact (Option.some.inj hreport).symm
  · obtain ⟨t', ht'⟩ := (hreported order horder).mpr ⟨t, none, ht⟩
    obtain ⟨docType, hdeclared⟩ := (htypes t').mp ⟨order, horder, ht'⟩
    rw [ht', hsearch order horder, ht, hall docType t' hdeclared]

/-- A field of the index and one of a type: the date is reported in every order. -/
theorem snapshot_reports_date :
    let puts := [⟨"p", none, "at", .date⟩, ⟨"p", some "t", "n", .long⟩, ⟨"q", some "t", "at", .text⟩]
    ∀ order, order.Perm (ofPuts puts).scopes →
      (snapshot ⟨order⟩ "p").lookup "at" = fieldType? ⟨order⟩ ["p"] [] "at" ∧
      fieldType? ⟨order⟩ ["p"] [] "at" = some .date := by
  intro puts order horder
  have hputs : ∀ p ∈ puts, '/' ∉ p.index.toList := by decide
  have hindex : '/' ∉ "p".toList := by decide
  obtain ⟨heach, -, hsame⟩ := snapshot_reports hputs hindex "at"
  have hlast : latest? puts "p" none "at" = some .date := by decide
  refine ⟨(hsame .date hlast).mpr ?_ order horder, (heach order horder).2.2.trans hlast⟩
  intro docType t ht
  cases docType with
  | none => exact Option.some.inj (ht.symm.trans hlast)
  | some _ => simp [latest?, puts] at ht

/-- **A type may hide what a search uses.**  A search over the index takes the field for a date,
and the report shows what is declared for a type, or the date if the index comes last. -/
theorem snapshot_differs_from_search :
    let m := ofPuts [⟨"p", none, "at", .date⟩, ⟨"p", some "t", "at", .long⟩]
    m.fieldType? ["p"] [] "at" = some .date ∧ m.snapshot "p" = [("at", .long)] ∧
    snapshot ⟨m.scopes.reverse⟩ "p" = [("at", .date)] := by
  decide +kernel

end DocSearch.Mappings
