import DocSearch.Proofs.Mapping.Scopes
import DocSearch.Proofs.Steps

/-!
# What a mapping body declares

The properties of a mapping body form a tree.  Each property declares one type, under the
names above it and its own name joined by dots: the type that it states or, if it has
properties itself, the type of an object unless it states another one.  The declarations
come in the order of the document, a property before those below it.

A body is accepted if every property in it, at every depth, states a type that is known.
Nothing is written before all of it is read, so what is refused leaves no trace.

## Main definitions

* `Declaration` — a type under some names, and `dotted`, the path of the names.
* `Listed`, `Declares` — the declarations of some properties, and of a body.

## Main results

* `pathOf_dotted` — the path of a property comes of the path above it.
* `ofPropertyList_eq_ok_iff`, `ofBody_eq_ok_iff` — what is read is what is declared.
* `run_merge` — writing in place gives what is written at once.
* `merge_declares` — **a body is declared as a whole or not at all**, and nothing else
  changes.
-/

namespace DocSearch.Mappings

open Steps

/-! ### Paths -/

/-- Names joined by dots; there is no dot as long as nothing has been written. -/
def dotted (names : List String) : String := Text.joinWith "." (names.dropWhile (·.isEmpty))

theorem joinWith_concat {sep : String} {names : List String} (hne : names ≠ []) (name : String) :
    Text.joinWith sep (names ++ [name]) = Text.joinWith sep names ++ sep ++ name := by
  induction names with
  | nil => exact absurd rfl hne
  | cons first rest ih =>
    cases rest with
    | nil => rfl
    | cons second rest =>
      simp only [List.cons_append, Text.joinWith_cons_cons] at ih ⊢
      rw [ih (List.cons_ne_nil _ _)]
      simp only [String.append_assoc]

/-- A text is written once a name that is not empty is. -/
theorem joinWith_ne_empty {sep first : String} (hfirst : first ≠ "") (rest : List String) :
    Text.joinWith sep (first :: rest) ≠ "" := by
  cases rest with
  | nil => exact hfirst
  | cons second rest =>
    rw [Text.joinWith_cons_cons, String.append_assoc]
    intro h
    exact hfirst (String.append_eq_empty_iff.mp h).1

/-- **The path of a property** comes of the path above it and its own name. -/
theorem pathOf_dotted (names : List String) (name : String) :
    pathOf (dotted names) name = dotted (names ++ [name]) := by
  unfold dotted
  cases hnames : names.dropWhile (·.isEmpty) with
  | nil =>
    -- the names above are empty, so the path begins here
    rw [List.dropWhile_append, hnames]
    by_cases hname : name.isEmpty <;> simp_all [pathOf]
  | cons first rest =>
    have hfirst : first ≠ "" := by
      have hhead := List.head_dropWhile_not (fun s : String => s.isEmpty) (l := names) (by simp [hnames])
      simpa [hnames] using hhead
    rw [List.dropWhile_append, hnames, if_neg (by simp), joinWith_concat (List.cons_ne_nil _ _), pathOf,
      if_neg (by simpa using joinWith_ne_empty hfirst rest)]

/-! ### Declarations -/

/-- A type that is declared under some names, the outermost first. -/
structure Declaration where
  /-- The names. -/
  names : List String
  /-- The type. -/
  type : FieldType
  deriving DecidableEq, Repr

/-- The field that a declaration is for, with its type. -/
def Declaration.entry (e : Declaration) : String × FieldType := (dotted e.names, e.type)

/-- The type that a property states, as it is written. -/
def statedType? (property : Json) : Option String := (property.member? "type").bind Json.string?

/-- The declarations of some properties, in the order of the document and a property before
those below it; `above` are the names above them. -/
inductive Listed : List String → List (String × Json) → List Declaration → Prop where
  | nil {above : List String} : Listed above [] []
  | leaf {above : List String} {name stated : String} {property : Json}
      {rest : List (String × Json)} {type : FieldType} {later : List Declaration}
      (hproperties : property.member? "properties" = none)
      (hstated : statedType? property = some stated) (htype : FieldType.ofName? stated = some type)
      (hrest : Listed above rest later) :
      Listed above ((name, property) :: rest) (⟨above ++ [name], type⟩ :: later)
  | parent {above : List String} {name : String} {property : Json}
      {inner rest : List (String × Json)} {type : FieldType} {below later : List Declaration}
      (hproperties : property.member? "properties" = some (.obj inner))
      (htype : FieldType.ofName? ((statedType? property).getD "object") = some type)
      (hbelow : Listed (above ++ [name]) inner below) (hrest : Listed above rest later) :
      Listed above ((name, property) :: rest) (⟨above ++ [name], type⟩ :: (below ++ later))

/-- A mapping body has these declarations. -/
def Declares (body : Json) (entries : List Declaration) : Prop :=
  ∃ properties, body.member? "properties" = some (.obj properties) ∧ Listed [] properties entries

/-! ### Reading -/

theorem ofInner_eq (path : String) (ms : List (String × Json)) :
    ofInner path ms = (ms.lookup "properties").map (ofProperties path) := by
  induction ms with
  | nil => rfl
  | cons m ms ih =>
    obtain ⟨name, v⟩ := m
    rw [ofInner, Members.lookup_cons]
    by_cases hname : name = "properties"
    · rw [if_pos hname, if_pos hname.symm]
      rfl
    · rw [if_neg hname, if_neg (Ne.symm hname)]
      exact ih

/-- What is not an object states no type and has no properties. -/
theorem ofProperty_eq (path : String) (property : Json) :
    ofProperty path property = propertyTypes path (statedType? property)
      ((property.member? "properties").map (ofProperties path)) := by
  cases property with
  | obj ms => rw [ofProperty, ofInner_eq]; rfl
  | _ => rfl

theorem ofProperties_eq_ok_iff {path : String} {properties : Json} {fields : FieldTypes} :
    ofProperties path properties = .ok fields ↔
      ∃ ms, properties = .obj ms ∧ ofPropertyList path ms = .ok fields := by
  cases properties with
  | obj ms => simp [ofProperties]
  | _ => simp [ofProperties]

theorem declaredType_eq_ok_iff {stated path : String} {type : FieldType} :
    declaredType stated path = .ok type ↔ FieldType.ofName? stated = some type := by
  unfold declaredType
  cases FieldType.ofName? stated <;> simp

/-- A property without properties declares what it states. -/
theorem ofProperty_eq_ok_iff_of_leaf {path : String} {property : Json} {fields : FieldTypes}
    (hproperties : property.member? "properties" = none) :
    ofProperty path property = .ok fields ↔ ∃ stated type, statedType? property = some stated ∧
      FieldType.ofName? stated = some type ∧ fields = [(path, type)] := by
  rw [ofProperty_eq, hproperties]
  cases hstated : statedType? property with
  | none => simp [propertyTypes]
  | some stated =>
    simp only [Option.map_none, propertyTypes, bind_eq_ok, pure_eq_ok, declaredType_eq_ok_iff]
    grind

/-- A property with properties is declared before them. -/
theorem ofProperty_eq_ok_iff_of_parent {path : String} {property properties : Json}
    {fields : FieldTypes} (hproperties : property.member? "properties" = some properties) :
    ofProperty path property = .ok fields ↔ ∃ type inner below,
      FieldType.ofName? ((statedType? property).getD "object") = some type ∧
      properties = .obj inner ∧ ofPropertyList path inner = .ok below ∧
      fields = (path, type) :: below := by
  rw [ofProperty_eq, hproperties]
  simp only [Option.map_some, propertyTypes, bind_eq_ok, pure_eq_ok, declaredType_eq_ok_iff,
    ofProperties_eq_ok_iff]
  grind

/-- The properties of a property are smaller than what it stands among. -/
theorem sizeOf_properties_lt {name : String} {property : Json} {inner rest : List (String × Json)}
    (hproperties : property.member? "properties" = some (.obj inner)) :
    sizeOf inner < sizeOf ((name, property) :: rest) := by
  cases property with
  | obj ms =>
    obtain ⟨before, after, rfl, -⟩ := List.lookup_eq_some_iff.mp hproperties
    have hmem : ("properties", Json.obj inner) ∈ before ++ ("properties", .obj inner) :: after := by simp
    have hlt := List.sizeOf_lt_of_mem hmem
    simp only [List.cons.sizeOf_spec, Prod.mk.sizeOf_spec, Json.obj.sizeOf_spec] at hlt ⊢
    omega
  | _ => cases hproperties

/-- **What is read is what is declared.** -/
theorem ofPropertyList_eq_ok_iff {above : List String} {properties : List (String × Json)}
    {fields : FieldTypes} : ofPropertyList (dotted above) properties = .ok fields ↔
      ∃ entries, Listed above properties entries ∧ fields = entries.map (·.entry) := by
  constructor
  · intro h
    match properties with
    | [] =>
      cases h
      exact ⟨[], .nil, rfl⟩
    | (name, property) :: rest =>
      rw [ofPropertyList, pathOf_dotted] at h
      simp only [bind_eq_ok, pure_eq_ok] at h
      obtain ⟨own, hown, laterFields, hlater, rfl⟩ := h
      obtain ⟨later, hrest, rfl⟩ := ofPropertyList_eq_ok_iff.mp hlater
      cases hproperties : property.member? "properties" with
      | none =>
        obtain ⟨stated, type, hstated, htype, rfl⟩ := (ofProperty_eq_ok_iff_of_leaf hproperties).mp hown
        exact ⟨_, .leaf hproperties hstated htype hrest, rfl⟩
      | some v =>
        obtain ⟨type, inner, belowFields, htype, rfl, hinner, rfl⟩ :=
          (ofProperty_eq_ok_iff_of_parent hproperties).mp hown
        -- the recursion is on the size of the document: what is below is no part of the list
        have hsmaller : sizeOf inner < sizeOf ((name, property) :: rest) :=
          sizeOf_properties_lt hproperties
        obtain ⟨below, hbelow, rfl⟩ := ofPropertyList_eq_ok_iff.mp hinner
        exact ⟨_, .parent hproperties htype hbelow hrest, by simp [Declaration.entry]⟩
  · rintro ⟨entries, hentries, rfl⟩
    induction hentries with
    | nil => rfl
    | @leaf above name stated property rest type later hproperties hstated htype _ ih =>
      have hown : ofProperty (dotted (above ++ [name])) property = .ok [(_, type)] :=
        (ofProperty_eq_ok_iff_of_leaf hproperties).mpr ⟨stated, type, hstated, htype, rfl⟩
      rw [ofPropertyList, pathOf_dotted, hown, ih]
      rfl
    | @parent above name property inner rest type below later hproperties htype _ _ ihbelow ihrest =>
      have hown : ofProperty (dotted (above ++ [name])) property = .ok ((_, type) :: _) :=
        (ofProperty_eq_ok_iff_of_parent hproperties).mpr ⟨type, inner, _, htype, rfl, ihbelow, rfl⟩
      rw [ofPropertyList, pathOf_dotted, hown, ihrest]
      simp [Declaration.entry, bind, Except.bind, pure, Except.pure]
termination_by sizeOf properties

theorem ofBody_eq_ok_iff {body : Json} {fields : FieldTypes} :
    ofBody body = .ok fields ↔ ∃ entries, Declares body entries ∧ fields = entries.map (·.entry) := by
  unfold ofBody Declares
  cases hbody : body.member? "properties" with
  | none => simp
  | some properties =>
    have hlist : ∀ ms, ofPropertyList "" ms = .ok fields ↔
        ∃ entries, Listed [] ms entries ∧ fields = entries.map (·.entry) :=
      fun ms => @ofPropertyList_eq_ok_iff [] ms fields
    simp only [ofProperties_eq_ok_iff, Option.some.injEq, hlist]
    constructor
    · rintro ⟨ms, rfl, entries, hentries, rfl⟩
      exact ⟨entries, ⟨ms, rfl, hentries⟩, rfl⟩
    · rintro ⟨entries, ⟨ms, rfl, hentries⟩, hfields⟩
      exact ⟨ms, rfl, entries, hentries, hfields⟩

/-! ### Writing -/

theorem run_forM_put (index : String) (docType : Option String) (fields : FieldTypes)
    (m : Mappings) :
    StateT.run (ExceptT.run (ε := MappingError) (m := StateM Mappings)
      (fields.forM fun (field, type) => modify fun m => m.put index docType field type)) m =
      (.ok (), m.putAll index docType fields) := by
  induction fields generalizing m with
  | nil => rfl
  | cons f fields ih => exact ih _

/-- **Writing in place gives what is written at once**, and what is refused writes nothing. -/
theorem merging_eq (m : Mappings) (index : String) (docType : Option String) (body : Json) :
    m.merging index docType body = match m.putProperties index docType body with
      | .ok (after, count) => (.ok count, after)
      | .error e => (.error e, m) := by
  unfold merging merge putProperties
  cases ofBody body with
  | error e => rfl
  | ok fields =>
    have hwritten := run_forM_put index docType fields m
    show StateT.run (ExceptT.run (fields.forM _ >>= fun _ => pure fields.length)) m = _
    rw [ExceptT.run_bind, StateT.run_bind, hwritten]
    rfl

/-- **A body is declared as a whole or not at all.**  It is refused if and only if some
property in it states no type that is known, and then nothing is changed.  Otherwise the
declarations are what they are after each property has been written, one after the other in
the order of the document, and the answer is how many there are.  No search over other
indices finds anything else than before, where the names of indices have no slash, and no
search for a field that is not among the properties. -/
theorem merging_declares (m : Mappings) (index : String) (docType : Option String) (body : Json) :
    let after := (m.merging index docType body).2
    match (m.merging index docType body).1 with
    | .error _ => (¬ ∃ entries, Declares body entries) ∧
        ∀ indices types field, after.fieldType? indices types field = m.fieldType? indices types field
    | .ok count => ∃ entries, Declares body entries ∧ count = entries.length ∧
        after = entries.foldl (fun m e => m.put index docType (dotted e.names) e.type) m ∧
        (∀ indices types field, '/' ∉ index.toList → (∀ i ∈ indices, '/' ∉ i.toList) →
          index ∉ indices → after.fieldType? indices types field = m.fieldType? indices types field) ∧
        ∀ indices types field, field ∉ entries.map (dotted ·.names) →
          after.fieldType? indices types field = m.fieldType? indices types field := by
  rw [merging_eq, putProperties]
  cases hbody : ofBody body with
  | error e =>
    refine ⟨?_, fun indices types field => rfl⟩
    rintro ⟨entries, hentries⟩
    have hok := ofBody_eq_ok_iff.mpr ⟨entries, hentries, rfl⟩
    rw [hbody] at hok
    cases hok
  | ok fields =>
    obtain ⟨entries, hentries, rfl⟩ := ofBody_eq_ok_iff.mp hbody
    refine ⟨entries, hentries, by simp, ?_, ?_, ?_⟩
    · exact List.foldl_map
    · intro indices types field hindex hindices hmem
      exact fieldType?_putAll_of_index hindex hindices hmem m docType _ types field
    · intro indices types field hfield
      apply fieldType?_putAll_of_field
      rw [List.map_map]
      exact hfield

/-- A property below another one, which states no type, and one beside them. -/
theorem merging_declares_nested :
    let body := Json.obj [("properties", .obj [
      ("a", .obj [("properties", .obj [("b", .obj [("type", .str "integer")])])]),
      ("c", .obj [("type", .str "date")])])]
    (empty.merging "p" (some "t") body).1 = .ok 3 ∧
      (empty.merging "p" (some "t") body).2.fieldType? ["p"] ["t"] "a.b" = some .long ∧
      (empty.merging "p" (some "t") body).2.fieldType? ["q"] ["t"] "a.b" = none := by
  intro body
  have hlaw := merging_declares empty "p" (some "t") body
  have hok : (empty.merging "p" (some "t") body).1 = .ok 3 := rfl
  rw [hok] at hlaw
  obtain ⟨entries, -, -, -, hindex, -⟩ := hlaw
  refine ⟨hok, by decide +kernel, ?_⟩
  exact hindex ["q"] ["t"] "a.b" (by decide) (by decide) (by decide)

end DocSearch.Mappings
