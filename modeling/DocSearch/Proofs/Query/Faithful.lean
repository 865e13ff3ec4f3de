import DocSearch.Proofs.Query.WellFormed
import DocSearch.Proofs.Store.MemberPath

/-!
# What is read is what was asked

Every predicate that is read mirrors its query.  It has one node for each query in it, nested
in the same way and in the same order, and what a node holds comes from the members of its
query.  A query names fields in four different ways, and in each of them the name is checked;
so every field of every node can be addressed in every database.

## Main definitions

* `Field.IsName` — a name that can be addressed.
* `Predicate.IsProper` — a node whose fields are names, with something to look for.
* `Predicate.Mirrors` — a predicate has a node for each query, with what the query holds.

## Main results

* `Field.checkName_eq_ok_iff` — names that are not refused can be addressed.
* `Query.states_of_simple` — what a body without queries in it is read as.
* `Predicate.mirrors_of_ofJson` — **every node of what is read is proper, and what is read
  mirrors its query**.
-/

namespace DocSearch

open Steps Query

/-! ### Names of fields -/

/-- A name that can be addressed in every database. -/
structure Field.IsName (field : String) : Prop where
  ne_empty : field ≠ ""
  segments_ne : ∀ s ∈ Field.segments field, s ≠ ""
  chars : ∀ c ∈ field.toList, c ≠ '"' ∧ Text.isControl c = false

/-- **Names that are not refused can be addressed.** -/
theorem Field.checkName_eq_ok_iff {field : String} :
    Field.checkName field = .ok () ↔ Field.IsName field := by
  unfold checkName
  split
  · next hempty =>
    exact iff_of_false (by simp) fun h => h.ne_empty (String.isEmpty_iff.mp hempty)
  split
  · next hsegments =>
    obtain ⟨s, hs, hempty⟩ := List.any_eq_true.mp hsegments
    exact iff_of_false (by simp) fun h => h.segments_ne s hs (String.isEmpty_iff.mp hempty)
  split
  · next hforbidden =>
    obtain ⟨c, hc, hbad⟩ := List.any_eq_true.mp hforbidden
    refine iff_of_false (by simp) fun h => ?_
    obtain ⟨hquote, hcontrol⟩ := h.chars c hc
    simp [hquote, hcontrol] at hbad
  · next hempty hsegments hforbidden =>
    refine iff_of_true rfl ⟨?_, ?_, ?_⟩
    · exact fun h => hempty (String.isEmpty_iff.mpr h)
    · exact fun s hs h => hsegments (List.any_eq_true.mpr ⟨s, hs, String.isEmpty_iff.mpr h⟩)
    · intro c hc
      rw [List.any_eq_true, not_exists] at hforbidden
      have hfree := hforbidden c
      simpa [hc] using hfree

/-! ### Nodes -/

namespace Predicate

mutual

/-- A predicate and all the predicates in it. -/
def nodes : Predicate → List Predicate
  | .bool ⟨must, filter, mustNot, should, minimumShouldMatch⟩ =>
    .bool ⟨must, filter, mustNot, should, minimumShouldMatch⟩ ::
      (nodesOf must ++ nodesOf filter ++ nodesOf mustNot ++ nodesOf should)
  | p => [p]

/-- Several predicates and all the predicates in them. -/
def nodesOf : List Predicate → List Predicate
  | [] => []
  | p :: ps => nodes p ++ nodesOf ps

end

theorem mem_nodesOf {n : Predicate} {ps : List Predicate} :
    n ∈ nodesOf ps ↔ ∃ p ∈ ps, n ∈ p.nodes := by
  induction ps with
  | nil => simp [nodesOf]
  | cons p ps ih => simp [nodesOf, ih]

/-- The nodes of a boolean predicate are itself and those of its clauses. -/
theorem mem_nodes_bool {n : Predicate} {groups : BoolClauses Predicate} :
    n ∈ nodes (.bool groups) ↔ n = .bool groups ∨
      ∃ g : ClauseGroup, ∃ p ∈ g.get groups, n ∈ p.nodes := by
  obtain ⟨must, filter, mustNot, should, raw⟩ := groups
  simp only [nodes, List.mem_cons, List.mem_append, mem_nodesOf]
  constructor
  · rintro (h | ((h | h) | h) | h)
    · exact .inl h
    · exact .inr ⟨.must, h⟩
    · exact .inr ⟨.filter, h⟩
    · exact .inr ⟨.mustNot, h⟩
    · exact .inr ⟨.should, h⟩
  · rintro (h | ⟨g, h⟩)
    · exact .inl h
    · cases g
      · exact .inr (.inl (.inl (.inl h)))
      · exact .inr (.inl (.inl (.inr h)))
      · exact .inr (.inl (.inr h))
      · exact .inr (.inr h)

/-- The fields of a node are names, and it has fields and bounds where it needs some, each
comparison once. -/
def IsProper : Predicate → Prop
  | .term field _ _ | .terms field _ | .present field | .startsWith field _
  | .fullText field _ _ => Field.IsName field
  | .range field bounds => Field.IsName field ∧ bounds ≠ [] ∧ (bounds.map (·.1)).Nodup
  | .multiField fields _ => fields ≠ [] ∧ ∀ f ∈ fields, Field.IsName f.name
  | .matchAll | .docType _ _ | .ids _ _ | .bool _ => True

end Predicate

/-! ### Leaves -/

namespace Query

/-- The kinds of query for a text in one field, with the mode that they settle. -/
def textKinds : List (String × Option MatchMode) :=
  [("match", none), ("match_phrase", some .phrase), ("match_phrase_prefix", some .phrasePrefix)]

/-- An item names a field, with a weight behind its last caret if it has one. -/
inductive NamesBoosted : Json → BoostedField → Prop
  | plain {name} (hcaret : '^' ∉ name.toList) : NamesBoosted (.str name) ⟨name, none⟩
  | boosted {name boost x} (hcaret : '^' ∉ boost.toList) (hx : readFloat boost = some x) :
    NamesBoosted (.str (name ++ "^" ++ boost)) ⟨name, some x⟩

/-- A predicate without others in it holds what the body of a query says. -/
inductive States : String → Json → Predicate → Prop
  | matchAll (params) : States "match_all" (.obj params) .matchAll
  | fullText {kind fixed field spec query boost v} (hkind : (kind, fixed) ∈ textKinds)
    (hv : (Json.parameters "query" spec).lookup "query" = some v) (htext : v.IsSpelt query.text)
    (hmode : ∀ mode, fixed = some mode → query.mode = mode) :
    States kind (.obj [(field, spec)]) (.fullText field query boost)
  | multiField {params fields query v items} (hv : params.lookup "query" = some v)
    (htext : v.IsSpelt query.text) (hitems : params.lookup "fields" = some (.arr items))
    (hfields : List.Forall₂ NamesBoosted items fields) :
    States "multi_match" (.obj params) (.multiField fields query)
  | term {field spec value boost}
    (hvalue : (Json.parameters "value" spec).lookup "value" = some (Scalar.toJson value)) :
    States "term" (.obj [(field, spec)]) (.term field value boost)
  | terms {params field values}
    (hvalues : besidesBoost params = [(field, .arr (values.map Scalar.toJson))]) :
    States "terms" (.obj params) (.terms field values)
  | docType {params value boost v} (hv : params.lookup "value" = some v)
    (hvalue : v.IsSpelt value) : States "type" (.obj params) (.docType value boost)
  | ids {params types values v} (hv : params.lookup "values" = some v)
    (hvalues : List.Forall₂ Json.IsSpelt v.listed values)
    (htypes : (∀ key ∈ ["type", "types"], params.lookup key = none) ∧ types = [] ∨
      ∃ key ∈ ["type", "types"], ∃ v, params.lookup key = some v ∧
        List.Forall₂ Json.IsSpelt v.listed types) :
    States "ids" (.obj params) (.ids types values)
  | range {field params bounds} (hbounds : besidesBoost params = boundMembers bounds) :
    States "range" (.obj [(field, .obj params)]) (.range field bounds)
  | present {params field} (hfield : params.lookup "field" = some (.str field)) :
    States "exists" (.obj params) (.present field)
  | startsWith {field spec text key v} (hkey : key ∈ ["value", "prefix"])
    (hv : (Json.parameters "value" spec).lookup key = some v) (htext : v.IsSpelt text) :
    States "prefix" (.obj [(field, spec)]) (.startsWith field text)

end Query

/-- A predicate has a node for each query in a query, in the same places, and each node holds
what its query says. -/
inductive Predicate.Mirrors : Json → Predicate → Prop
  | leaf {kind body p} (h : States kind body p) : Mirrors (.obj [(kind, body)]) p
  | bool {ms groups}
    (h : ∀ g : ClauseGroup, List.Forall₂ Mirrors (((ms.lookup g.key).map Json.listed).getD [])
      (g.get groups)) : Mirrors (.obj [("bool", .obj ms)]) (.bool groups)

namespace Query

/-! ### Leaves that are read -/

section Leaves

variable {body : Json} {p : Predicate}

theorem nodup_names_parameters {spec : Json} (h : spec.Distinct) (name : String) :
    (Members.names (spec.parameters name)).Nodup := by
  unfold Json.parameters
  split
  · exact (Json.distinct_obj_iff.mp h).1
  · simp [Members.names]

/-- The text of a query for a text in one field comes from its parameter. -/
theorem TextWrites.text_of_run {fixed : Bool} {params : List (String × Json)}
    {s r : TextParameters} (hnames : (Members.names params).Nodup)
    (h : (TextWrites fixed).Run params s r) (hs : s.text = none) {text : String}
    (htext : r.text = some text) : ∃ v, params.lookup "query" = some v ∧ v.IsSpelt text := by
  refine h.of_some hnames ?_ ?_ hs htext
  · intro key v w hw hne s
    cases hw <;> first | rfl | exact absurd rfl hne
  · intro key v w hw hkey
    cases hw with
    | query h => exact ⟨_, h, fun _ => rfl⟩
    | _ => exact absurd hkey (by decide)

theorem states_of_fullText {kind : String} {fixed : Option MatchMode}
    (hkind : (kind, fixed) ∈ textKinds) (hbody : body.Distinct)
    (h : fullText kind fixed body = .ok p) : p.IsProper ∧ States kind body p := by
  obtain ⟨field, spec, r, text, rfl, hname, hrun, htext, rfl⟩ := fullText_eq_ok.mp h
  have hnames := nodup_names_parameters (Json.distinct_singleton_iff.mp hbody) "query"
  obtain ⟨v, hv, hspelt⟩ := TextWrites.text_of_run hnames hrun rfl htext
  refine ⟨Field.checkName_eq_ok_iff.mp hname, .fullText hkind hv hspelt ?_⟩
  rintro mode rfl
  exact TextWrites.mode_of_run hrun

theorem splitBoost_eq_none {raw : String} (h : splitBoost raw = none) : '^' ∉ raw.toList := by
  unfold splitBoost at h
  simp only at h
  split at h
  · next hdrop =>
    intro hmem
    rw [List.dropWhile_eq_nil_iff] at hdrop
    simpa using hdrop '^' (List.mem_reverse.mpr hmem)
  · cases h

/-- A text is split at its last caret. -/
theorem splitBoost_eq_some {raw name boost : String} (h : splitBoost raw = some (name, boost)) :
    raw = name ++ "^" ++ boost ∧ '^' ∉ boost.toList := by
  unfold splitBoost at h
  simp only at h
  split at h
  · cases h
  · next c rest hdrop =>
    obtain ⟨rfl, rfl⟩ := Prod.mk.inj (Option.some.inj h)
    -- the text is searched from its end, so the rest of the reversed text starts with the caret
    have hcaret : c = '^' := by
      have hhead := List.head?_dropWhile_not (fun c => decide (c ≠ '^')) raw.toList.reverse
      rw [hdrop] at hhead
      simpa using hhead
    have hsplit := List.takeWhile_append_dropWhile (p := fun c => decide (c ≠ '^'))
      (l := raw.toList.reverse)
    rw [hdrop, hcaret] at hsplit
    constructor
    · calc raw = String.ofList raw.toList.reverse.reverse := by
            rw [List.reverse_reverse, String.ofList_toList]
        _ = String.ofList (rest.reverse ++ ['^'] ++
              (raw.toList.reverse.takeWhile (· ≠ '^')).reverse) := by
            rw [← hsplit, List.reverse_append, List.reverse_cons, hsplit]
        _ = _ := by
            rw [String.ofList_append, String.ofList_append]
    · intro hmem
      have htake := List.mem_takeWhile_imp (by simpa using hmem)
      simp at htake

theorem namesBoosted_of_fieldItem {item : Json} {f : BoostedField} (h : fieldItem item = .ok f) :
    NamesBoosted item f ∧ Field.IsName f.name := by
  unfold fieldItem at h
  cases item with
  | str raw =>
    simp only [Json.string?, boostedField] at h
    split at h
    · next hsplit =>
      simp only [bind_eq_ok, pure_eq_ok, fieldName_eq_ok] at h
      obtain ⟨_, ⟨hname, rfl⟩, rfl⟩ := h
      exact ⟨.plain (splitBoost_eq_none hsplit), Field.checkName_eq_ok_iff.mp hname⟩
    · next name boost hsplit =>
      split at h
      · cases h
      · next x hx =>
        simp only [bind_eq_ok, pure_eq_ok, fieldName_eq_ok] at h
        obtain ⟨_, ⟨hname, rfl⟩, rfl⟩ := h
        obtain ⟨rfl, hcaret⟩ := splitBoost_eq_some hsplit
        exact ⟨.boosted hcaret hx, Field.checkName_eq_ok_iff.mp hname⟩
  | _ => simp [Json.string?] at h

theorem MultiFieldWrites.text_of_run {params : List (String × Json)} {r : TextParameters}
    (hnames : (Members.names params).Nodup) (h : MultiFieldWrites.Run params {} r) {text : String}
    (htext : r.text = some text) : ∃ v, params.lookup "query" = some v ∧ v.IsSpelt text := by
  refine h.of_some hnames ?_ ?_ rfl htext
  · intro key v w hw hne s
    cases hw <;> first | rfl | exact absurd rfl hne
  · intro key v w hw hkey
    cases hw with
    | query h => exact ⟨_, h, fun _ => rfl⟩
    | _ => exact absurd hkey (by decide)

theorem MultiFieldWrites.fields_of_run {params : List (String × Json)} {r : TextParameters}
    (hnames : (Members.names params).Nodup) (h : MultiFieldWrites.Run params {} r)
    (hne : r.fields ≠ []) : ∃ items, params.lookup "fields" = some (.arr items) ∧
      List.Forall₂ (fun item f => fieldItem item = .ok f) items r.fields := by
  have hother : ∀ key v w, MultiFieldWrites key v w → key ≠ "fields" →
      ∀ s, (w s).fields = s.fields := by
    intro key v w hw hne s
    cases hw <;> first | rfl | exact absurd rfl hne
  have hset : ∀ key v w, MultiFieldWrites key v w → key = "fields" → ∃ items fs, v = .arr items ∧
      List.Forall₂ (fun item f => fieldItem item = .ok f) items fs ∧
        ∀ s, (w s).fields = s.fields ++ fs := by
    intro key v w hw hkey
    cases hw with
    | fields h => exact ⟨_, _, rfl, h, fun _ => rfl⟩
    | _ => exact absurd hkey (by decide)
  rcases h.of_lookup hnames hother with ⟨-, hnil⟩ | ⟨v, w, r', hv, hw, hstart, hslot⟩
  · exact absurd hnil hne
  · obtain ⟨items, fs, rfl, hfs, hw⟩ := hset _ v w hw rfl
    -- nothing has written fields before
    have hfields : r.fields = fs := by
      rw [hslot, hw, hstart]
      rfl
    exact ⟨items, hv, hfields ▸ hfs⟩

theorem states_of_multiField (hbody : body.Distinct) (h : multiField body = .ok p) :
    p.IsProper ∧ States "multi_match" body p := by
  have hwellFormed := wellFormed_multiField h
  obtain ⟨params, r, text, rfl, hrun, htext, -, rfl⟩ := multiField_eq_ok.mp h
  have hne : r.fields ≠ [] := hwellFormed
  have hnames := (Json.distinct_obj_iff.mp hbody).1
  obtain ⟨v, hv, hspelt⟩ := MultiFieldWrites.text_of_run hnames hrun htext
  obtain ⟨items, hitems, hread⟩ := MultiFieldWrites.fields_of_run hnames hrun hne
  have hproper := forall_of_forall₂_right (hread.imp fun _ _ h => (namesBoosted_of_fieldItem h).2)
  have hfields := hread.imp fun _ _ h => (namesBoosted_of_fieldItem h).1
  exact ⟨⟨hne, hproper⟩, .multiField hv hspelt hitems hfields⟩

/-- A value comes from a parameter for it. -/
theorem ValueWrites.value_of_run {α : Type} {isValue : String → Bool} {R : Json → α → Prop}
    {params : List (String × Json)} {r : ValueParameters α}
    (h : (ValueWrites isValue R).Run params {} r) {a : α} (ha : r.value = some a) :
    ∃ key v, isValue key = true ∧ (key, v) ∈ params ∧ R v a := by
  have hother : ∀ key v w, ValueWrites isValue R key v w → ¬ isValue key = true →
      ∀ s, (w s).value = s.value := by
    intro key v w hw hne s
    cases hw with
    | value hkey => exact absurd hkey hne
    | boost => rfl
  rcases h.exists_last hother with ⟨-, hnone⟩ | ⟨before, m, after, w, r', rfl, hm, -, hw, hslot⟩
  · rw [hnone] at ha
    cases ha
  · obtain ⟨a', ha', rfl⟩ := hw.of_isValue hm
    obtain rfl : a' = a := Option.some.inj (hslot.symm.trans ha)
    exact ⟨m.1, m.2, hm, by simp, ha'⟩

theorem ValueWrites.lookup_of_run {α : Type} {isValue : String → Bool} {R : Json → α → Prop}
    {params : List (String × Json)} (hnames : (Members.names params).Nodup) {r : ValueParameters α}
    (h : (ValueWrites isValue R).Run params {} r) {a : α} (ha : r.value = some a) :
    ∃ key v, isValue key = true ∧ params.lookup key = some v ∧ R v a := by
  obtain ⟨key, v, hkey, hm, hR⟩ := value_of_run h ha
  exact ⟨key, v, hkey, (Members.mem_iff_lookup hnames (key, v)).mp hm, hR⟩

theorem states_of_term (hbody : body.Distinct) (h : term body = .ok p) :
    p.IsProper ∧ States "term" body p := by
  obtain ⟨field, spec, r, value, rfl, hname, hrun, hvalue, rfl⟩ := term_eq_ok.mp h
  have hnames := nodup_names_parameters (Json.distinct_singleton_iff.mp hbody) "value"
  obtain ⟨key, v, hkey, hv, rfl⟩ := ValueWrites.lookup_of_run hnames hrun hvalue
  obtain rfl := of_decide_eq_true hkey
  exact ⟨Field.checkName_eq_ok_iff.mp hname, .term hv⟩

theorem states_of_startsWith (hbody : body.Distinct) (h : startsWith body = .ok p) :
    p.IsProper ∧ States "prefix" body p := by
  obtain ⟨field, spec, r, text, rfl, hname, hrun, htext, rfl⟩ := startsWith_eq_ok.mp h
  have hnames := nodup_names_parameters (Json.distinct_singleton_iff.mp hbody) "value"
  obtain ⟨key, v, hkey, hv, hspelt⟩ := ValueWrites.lookup_of_run hnames hrun htext
  exact ⟨Field.checkName_eq_ok_iff.mp hname, .startsWith (by simpa using hkey) hv hspelt⟩

theorem states_of_docType (hbody : body.Distinct) (h : docType body = .ok p) :
    p.IsProper ∧ States "type" body p := by
  obtain ⟨params, r, value, rfl, hrun, hvalue, rfl⟩ := docType_eq_ok.mp h
  obtain ⟨key, v, hkey, hv, hspelt⟩ :=
    ValueWrites.lookup_of_run (Json.distinct_obj_iff.mp hbody).1 hrun hvalue
  obtain rfl := of_decide_eq_true hkey
  exact ⟨trivial, .docType hv hspelt⟩

theorem states_of_present (hbody : body.Distinct) (h : present body = .ok p) :
    p.IsProper ∧ States "exists" body p := by
  obtain ⟨params, r, field, rfl, hrun, hfield, rfl⟩ := present_eq_ok.mp h
  obtain ⟨key, v, hkey, hv, rfl, hname⟩ :=
    ValueWrites.lookup_of_run (Json.distinct_obj_iff.mp hbody).1 hrun hfield
  obtain rfl := of_decide_eq_true hkey
  exact ⟨Field.checkName_eq_ok_iff.mp hname, .present hv⟩

theorem states_of_terms (h : terms body = .ok p) : p.IsProper ∧ States "terms" body p := by
  obtain ⟨params, field, values, rfl, -, hvalues, hname, rfl⟩ := terms_eq_ok.mp h
  exact ⟨Field.checkName_eq_ok_iff.mp hname, .terms hvalues⟩

theorem states_of_range (hbody : body.Distinct) (h : range body = .ok p) :
    p.IsProper ∧ States "range" body p := by
  have hwellFormed := wellFormed_range h
  obtain ⟨field, params, bounds, rfl, hname, -, hbounds, -, rfl⟩ := range_eq_ok.mp h
  refine ⟨⟨Field.checkName_eq_ok_iff.mp hname, hwellFormed, ?_⟩, .range hbounds⟩
  -- a comparison that stood there twice would be a name that stands there twice
  have hnames := (Json.distinct_obj_iff.mp (Json.distinct_singleton_iff.mp hbody)).1
  have hkeys : (boundMembers bounds).map Prod.fst = (bounds.map Prod.fst).map RangeOp.key := by
    simp [boundMembers]
  have hfilter : ((besidesBoost params).map Prod.fst).Nodup :=
    (List.filter_sublist.map Prod.fst).nodup hnames
  rw [hbounds, hkeys] at hfilter
  exact .of_map _ hfilter

theorem states_of_matchAll (h : matchAll body = .ok p) :
    p.IsProper ∧ States "match_all" body p := by
  obtain ⟨params, r, rfl, -, rfl⟩ := matchAll_eq_ok.mp h
  exact ⟨trivial, .matchAll params⟩

theorem IdsWrites.values_of_run {params : List (String × Json)}
    {r : List String × Option (List String)} (hnames : (Members.names params).Nodup)
    (h : IdsWrites.Run params ([], none) r) {values : List String} (hvalues : r.2 = some values) :
    ∃ v, params.lookup "values" = some v ∧ List.Forall₂ Json.IsSpelt v.listed values := by
  have hother : ∀ key v w, IdsWrites key v w → key ≠ "values" →
      ∀ s, Prod.snd (w s) = Prod.snd s := by
    intro key v w hw hne s
    cases hw <;> first | rfl | exact absurd rfl hne
  have hset : ∀ key v w, IdsWrites key v w → key = "values" →
      ∃ values, List.Forall₂ Json.IsSpelt v.listed values ∧
        ∀ s, Prod.snd (w s) = some values := by
    intro key v w hw hkey
    cases hw with
    | types htypes => exact absurd htypes (by rw [hkey]; decide)
    | values h => exact ⟨_, h, fun _ => rfl⟩
    | boost => exact absurd hkey (by decide)
  exact h.of_some hnames hother hset rfl hvalues

/-- The types come from a member for them, if there is one. -/
theorem IdsWrites.types_of_run {params : List (String × Json)}
    {r : List String × Option (List String)} (hnames : (Members.names params).Nodup)
    (h : IdsWrites.Run params ([], none) r) :
    (∀ key ∈ ["type", "types"], params.lookup key = none) ∧ r.1 = [] ∨
      ∃ key ∈ ["type", "types"], ∃ v, params.lookup key = some v ∧
        List.Forall₂ Json.IsSpelt v.listed r.1 := by
  have hother : ∀ key v w, IdsWrites key v w → ¬ key ∈ ["type", "types"] → ∀ s, (w s).1 = s.1 := by
    intro key v w hw hne s
    cases hw with
    | types hkey => exact absurd (by simpa using hkey) hne
    | _ => rfl
  rcases h.exists_last hother with
    ⟨hnone, htypes⟩ | ⟨before, m, after, w, r', rfl, hm, -, hw, htypes⟩
  · refine .inl ⟨fun key hkey => Writing.lookup_eq_none.mpr ?_, htypes⟩
    rintro m hm rfl
    exact hnone m hm hkey
  · obtain ⟨key, u⟩ := m
    refine .inr ⟨key, hm, u, (Members.mem_iff_lookup hnames (key, u)).mp (by simp), ?_⟩
    rw [htypes]
    cases hw with
    | types _ h => exact h
    | values | boost => simp at hm

theorem states_of_ids (hbody : body.Distinct) (h : ids body = .ok p) :
    p.IsProper ∧ States "ids" body p := by
  obtain ⟨params, r, values, rfl, hrun, hvalues, rfl⟩ := ids_eq_ok.mp h
  have hnames := (Json.distinct_obj_iff.mp hbody).1
  obtain ⟨v, hv, hspelt⟩ := IdsWrites.values_of_run hnames hrun hvalues
  exact ⟨trivial, .ids hv hspelt (IdsWrites.types_of_run hnames hrun)⟩

end Leaves

/-- **What a body without queries in it is read as**: a proper node that holds what it says. -/
theorem states_of_simple {kind : String} {body : Json} {p : Predicate} (hbody : body.Distinct)
    (h : simple kind body = .ok p) : p.IsProper ∧ States kind body p := by
  unfold simple at h
  split at h
  · exact states_of_matchAll h
  · exact states_of_fullText (by simp [textKinds]) hbody h
  · exact states_of_fullText (by simp [textKinds]) hbody h
  · exact states_of_fullText (by simp [textKinds]) hbody h
  · exact states_of_multiField hbody h
  · exact states_of_term hbody h
  · exact states_of_terms h
  · exact states_of_docType hbody h
  · exact states_of_ids hbody h
  · exact states_of_range hbody h
  · exact states_of_present hbody h
  · exact states_of_startsWith hbody h
  · cases h

/-! ### Boolean queries that are read -/

/-- The clauses of a group are read from the member with its name. -/
theorem ClauseWrites.clauses_of_run {ms : List (String × Json)} {groups : BoolClauses Predicate}
    (hnames : (Members.names ms).Nodup) (h : ClauseWrites.Run ms {} groups) (g : ClauseGroup) :
    List.Forall₂ (fun c p => Predicate.ofJson c = .ok p)
      (((ms.lookup g.key).map Json.listed).getD []) (g.get groups) := by
  rcases h.of_lookup hnames fun _ _ _ hw hne => hw.get_of_ne hne with
    ⟨hnone, hslot⟩ | ⟨v, w, r, hv, hw, -, hslot⟩
  · rw [hnone, hslot]
    cases g <;> exact .nil
  · obtain ⟨ps, hps, hget⟩ := hw.get_of_eq rfl
    rw [hv, hslot, hget]
    exact hps

end Query

theorem Json.distinct_of_mem_listed {v c : Json} (hv : v.Distinct) (hc : c ∈ v.listed) :
    c.Distinct := by
  unfold listed at hc
  split at hc
  · cases hv with
    | arr hitems => exact hitems c hc
  · rw [List.mem_singleton.mp hc]
    exact hv

namespace Predicate

/-- **Every node of what is read is proper, and what is read mirrors its query**, where each
name stands once (`Json.distinct_of_read`). -/
theorem mirrors_of_ofJson {q : Json} {p : Predicate} (hq : q.Distinct) (h : ofJson q = .ok p) :
    (∀ n ∈ p.nodes, n.IsProper) ∧ Mirrors q p := by
  revert hq
  refine reading_induction (motive := fun q p => q.Distinct →
    (∀ n ∈ p.nodes, n.IsProper) ∧ Mirrors q p) ?_ ?_ h
  · intro kind body p hkind h hq
    obtain ⟨hproper, hstates⟩ := states_of_simple (Json.distinct_singleton_iff.mp hq) h
    have hnodes : p.nodes = [p] := by
      cases hstates <;> rfl
    rw [hnodes, List.forall_mem_singleton]
    exact ⟨hproper, .leaf hstates⟩
  · intro ms groups hrun ih hq
    have hms := Json.distinct_obj_iff.mp (Json.distinct_singleton_iff.mp hq)
    have hnames := hms.1
    -- the clauses of a group are clauses of the query, so they are proper and mirror theirs
    have hclauses : ∀ g : ClauseGroup, List.Forall₂ (fun c p =>
        (∀ n ∈ p.nodes, n.IsProper) ∧ Mirrors c p)
        (((ms.lookup g.key).map Json.listed).getD []) (g.get groups) := by
      intro g
      refine (forall₂_with_mem (ClauseWrites.clauses_of_run hnames hrun g)).imp ?_
      rintro c p ⟨hc, hp⟩
      cases hlookup : ms.lookup g.key with
      | none => simp [hlookup] at hc
      | some v =>
        simp only [hlookup, Option.map_some, Option.getD_some] at hc
        have hm := (Members.mem_iff_lookup hnames (g.key, v)).mpr hlookup
        exact ih _ hm c hc p hp (Json.distinct_of_mem_listed (hms.2 _ hm) hc)
    refine ⟨?_, .bool fun g => (hclauses g).imp fun _ _ h => h.2⟩
    intro n hn
    rcases mem_nodes_bool.mp hn with rfl | ⟨g, p, hp, hn⟩
    · trivial
    · exact forall_of_forall₂_right ((hclauses g).imp fun _ _ h => h.1) p hp n hn

/-- A query that stands alone, and one in a list. -/
theorem mirrors_of_ofJson_bool :
    let q : Json := .obj [("bool", .obj [("must", .obj [("term", .obj [("a.b", .str "x")])]),
      ("must_not", .arr [.obj [("range", .obj [("n", .obj [("gte", .num (.int 1))])])]])])]
    let p : Predicate := .bool
      { must := [.term "a.b" (.text "x") none], mustNot := [.range "n" [(.gte, .number (.int 1))]] }
    q.Distinct ∧ ofJson q = .ok p ∧ (∀ n ∈ p.nodes, n.IsProper) ∧ Mirrors q p := by
  intro q p
  have hq : q.Distinct := by
    refine Json.distinct_singleton_iff.mpr (.obj (by decide) ?_)
    simp only [List.forall_mem_cons, Json.distinct_singleton_iff]
    refine ⟨.str _, .arr ?_, by simp⟩
    simpa [Json.distinct_singleton_iff] using .num _
  have h : ofJson q = .ok p := by rfl
  exact ⟨hq, h, mirrors_of_ofJson hq h⟩

end Predicate

end DocSearch
