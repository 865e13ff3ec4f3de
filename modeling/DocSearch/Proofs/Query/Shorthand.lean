import DocSearch.Proofs.Json.Reordered
import DocSearch.Proofs.Query.Clauses
import Mathlib.Logic.Relation

/-!
# Short spellings of queries

Queries have short spellings: a query that stands alone for the list of it, a value in the
place of its parameters, a kind of its own for a mode, a value in the place of a list.  Each of
them can be written out, here or there or everywhere, and nothing changes: the query is still
read, and as the same predicate.

## Main definitions

* `Json.Expands` — one short spelling in a query is written out.
* `Json.desugar` — all of them are.

## Main results

* `Json.Expands.ofJson_eq_ok` — one step does not change what is read.
* `Json.expands_desugar`, `Json.not_expands_desugar` — writing out everything is done step by
  step, and leaves nothing to write out.
* `Predicate.ofJson_desugar` — **short spellings are read as what they are short for**.
-/

namespace DocSearch

open Query Relation

/-- The parameter that a value stands for, by kind of query. -/
def mainParameters : List (String × String) :=
  [("match", "query"), ("match_phrase", "query"), ("match_phrase_prefix", "query"),
    ("term", "value"), ("prefix", "value")]

/-- The kinds that stand for a mode, with the name of the mode. -/
def phraseTypes : List (String × String) :=
  [("match_phrase", "phrase"), ("match_phrase_prefix", "phrase_prefix")]

/-- The parameters of a query for identifiers that are lists. -/
def idLists : List String := ["values", "type", "types"]

theorem mem_mainParameters_iff {kind name : String} :
    (kind, name) ∈ mainParameters ↔ mainParameters.lookup kind = some name :=
  Members.mem_iff_lookup (by decide) (kind, name)

theorem mem_phraseTypes_iff {kind type : String} :
    (kind, type) ∈ phraseTypes ↔ phraseTypes.lookup kind = some type :=
  Members.mem_iff_lookup (by decide) (kind, type)

/-- The names of the groups of a boolean query. -/
def groupNames : List String := ["must", "filter", "must_not", "should"]

theorem mem_groupNames_iff {key : String} : key ∈ groupNames ↔ ∃ g : ClauseGroup, g.key = key := by
  constructor
  · intro h
    simp only [groupNames, List.mem_cons, List.not_mem_nil, or_false] at h
    rcases h with rfl | rfl | rfl | rfl
    exacts [⟨.must, rfl⟩, ⟨.filter, rfl⟩, ⟨.mustNot, rfl⟩, ⟨.should, rfl⟩]
  · rintro ⟨g, rfl⟩
    cases g <;> decide

/-! ### One step -/

namespace Json

/-- A boolean query with `v` for a group, among other members. -/
def boolWith (before : List (String × Json)) (g : ClauseGroup) (v : Json)
    (after : List (String × Json)) : Json :=
  .obj [("bool", .obj (before ++ (g.key, v) :: after))]

/-- A query that asks something of a field. -/
def ofField (kind field : String) (spec : Json) : Json := .obj [(kind, .obj [(field, spec)])]

/-- One short spelling in a query is written out. -/
inductive Expands : Json → Json → Prop
  /-- A query that stands alone. -/
  | alone {before g ms after} :
    Expands (boolWith before g (.obj ms) after) (boolWith before g (.arr [.obj ms]) after)
  /-- A value in the place of parameters. -/
  | scalar {kind name field} (hkind : (kind, name) ∈ mainParameters) (s : Scalar) :
    Expands (ofField kind field s.toJson) (ofField kind field (.obj [(name, s.toJson)]))
  /-- A kind that stands for a mode. -/
  | phrase {kind type field before after} (hkind : (kind, type) ∈ phraseTypes) :
    Expands (ofField kind field (.obj (before ++ after)))
      (ofField "match" field (.obj (before ++ ("type", .str type) :: after)))
  /-- A value in the place of a list. -/
  | ids {before key after} (hkey : key ∈ idLists) (s : Scalar) :
    Expands (.obj [("ids", .obj (before ++ (key, s.toJson) :: after))])
      (.obj [("ids", .obj (before ++ (key, .arr [s.toJson]) :: after))])
  /-- In a query that stands alone. -/
  | clause {before g v v' after} (h : Expands v v') :
    Expands (boolWith before g v after) (boolWith before g v' after)
  /-- In a query of a list. -/
  | item {before g ahead v v' behind after} (h : Expands v v') :
    Expands (boolWith before g (.arr (ahead ++ v :: behind)) after)
      (boolWith before g (.arr (ahead ++ v' :: behind)) after)

/-! ### All steps -/

/-- A scalar as an object with one parameter; anything else stays. -/
def spelled (name : String) (v : Json) : Json :=
  match Scalar.ofJson? v with
  | some s => .obj [(name, s.toJson)]
  | none => v

/-- A scalar as a list; anything else stays. -/
def enlisted (v : Json) : Json :=
  match Scalar.ofJson? v with
  | some s => .arr [s.toJson]
  | none => v

/-- What is asked of a field, with a value in the place of parameters written out. -/
def desugarScalar (kind : String) (spec : Json) : Json :=
  match mainParameters.lookup kind with
  | some name => spec.spelled name
  | none => spec

/-- What is asked of a field, with a kind that stands for a mode written out. -/
def desugarPhrase (kind field : String) (spec : Json) : Json :=
  match phraseTypes.lookup kind, spec with
  | some type, .obj params => ofField "match" field (.obj (params ++ [("type", .str type)]))
  | _, spec => ofField kind field spec

/-- A parameter of a query for identifiers, with a value in the place of a list written out. -/
def desugarIds (m : String × Json) : String × Json :=
  if m.1 ∈ idLists then (m.1, m.2.enlisted) else m

/-- A query without queries in it, written out. -/
def desugarLeaf (kind : String) (body : Json) : Json :=
  if kind = "ids" then
    match body with
    | .obj params => .obj [(kind, .obj (params.map desugarIds))]
    | body => .obj [(kind, body)]
  else
    match body with
    | .obj [(field, spec)] => desugarPhrase kind field (desugarScalar kind spec)
    | body => .obj [(kind, body)]

mutual

/-- A query with every short spelling in it written out. -/
def desugar : Json → Json
  | .obj [(kind, body)] =>
    if kind = "bool" then
      match body with
      | .obj ms => .obj [(kind, .obj (desugarMembers ms))]
      | body => .obj [(kind, body)]
    else desugarLeaf kind body
  | v => v

/-- The members of a boolean query with every short spelling in them written out. -/
def desugarMembers : List (String × Json) → List (String × Json)
  | [] => []
  | (key, v) :: rest =>
    (key, if key ∈ groupNames then
      if v.isObject then .arr [desugar v] else desugarList v else v) :: desugarMembers rest

/-- A list of queries with every short spelling in them written out. -/
def desugarList : Json → Json
  | .arr items => .arr (desugarItems items)
  | v => v

/-- Several queries with every short spelling in them written out. -/
def desugarItems : List Json → List Json
  | [] => []
  | v :: rest => desugar v :: desugarItems rest

end

end Json

/-! ### One step does not change what is read -/

theorem ne_bool_of_mainParameters {kind name : String} (h : (kind, name) ∈ mainParameters) :
    kind ≠ "bool" := by
  rintro rfl
  simp [mainParameters] at h

theorem ne_bool_of_phraseTypes {kind type : String} (h : (kind, type) ∈ phraseTypes) :
    kind ≠ "bool" := by
  rintro rfl
  simp [phraseTypes] at h

namespace Json

theorem listed_toJson (s : Scalar) : s.toJson.listed = [s.toJson] := by
  cases s <;> rfl

theorem parameters_toJson (name : String) (s : Scalar) :
    s.toJson.parameters name = [(name, s.toJson)] := by
  cases s <;> rfl

theorem Expands.listed_left {v v' : Json} (h : v.Expands v') : v.listed = [v] := by
  cases h <;> rfl

theorem Expands.listed_right {v v' : Json} (h : v.Expands v') : v'.listed = [v'] := by
  cases h <;> rfl

end Json

/-- An item may be replaced by one that is related to at least as much. -/
theorem forall₂_replace {α β : Type} {R : α → β → Prop} {ahead behind : List α} {a a' : α}
    {bs : List β} (ha : ∀ b, R a b → R a' b) (h : List.Forall₂ R (ahead ++ a :: behind) bs) :
    List.Forall₂ R (ahead ++ a' :: behind) bs := by
  induction ahead generalizing bs with
  | nil =>
    cases h with
    | cons hb hbs => exact .cons (ha _ hb) hbs
  | cons x ahead ih =>
    cases h with
    | cons hb hbs => exact .cons hb (ih hbs)

namespace Query

variable {kind field : String} {spec spec' : Json} {p : Predicate}

/-- The mode of a query for a text is not looked at when its parameters are read. -/
theorem TextWrites.of_fixed {key : String} {v : Json} {w : TextParameters → TextParameters}
    (h : TextWrites true key v w) :
    TextWrites false key v w ∧ ∀ s m, w { s with mode := m } = { w s with mode := m } := by
  cases h with
  | query h => exact ⟨.query h, fun _ _ => rfl⟩
  | operator h => exact ⟨.operator h, fun _ _ => rfl⟩
  | zeroTerms h => exact ⟨.zeroTerms h, fun _ _ => rfl⟩
  | boost h => exact ⟨.boost h, fun _ _ => rfl⟩
  | analyzer v => exact ⟨.analyzer v, fun _ _ => rfl⟩
  | maxExpansions v => exact ⟨.maxExpansions v, fun _ _ => rfl⟩
  | mode hfixed => cases hfixed

theorem TextWrites.run_of_fixed {params : List (String × Json)} {s r : TextParameters}
    (h : (TextWrites true).Run params s r) (m : MatchMode) :
    (TextWrites false).Run params { s with mode := m } { r with mode := m } := by
  induction params generalizing s with
  | nil => rw [Writing.run_nil.mp h, Writing.run_nil]
  | cons param params ih =>
    obtain ⟨w, hw, h⟩ := Writing.run_cons.mp h
    obtain ⟨hw, hmode⟩ := hw.of_fixed
    refine Writing.run_cons.mpr ⟨w, hw, ?_⟩
    rw [hmode]
    exact ih h

/-- A kind that stands for a mode is read as the kind that is given the mode. -/
theorem fullText_phrase {before after : List (String × Json)} {kind' : String}
    {mode : MatchMode} {type : Json}
    (htype : ∀ kind, Query.mode kind type = .ok mode)
    (h : fullText kind (some mode) (.obj [(field, .obj (before ++ after))]) = .ok p) :
    fullText kind' none (.obj [(field, .obj (before ++ ("type", type) :: after))]) = .ok p := by
  obtain ⟨_, _, r, text, hbody, hname, hrun, htext, rfl⟩ := fullText_eq_ok.mp h
  obtain ⟨rfl, rfl⟩ : field = _ ∧ _ = _ := by simpa using hbody
  refine fullText_eq_ok.mpr ⟨field, _, r, text, rfl, hname, ?_, htext, rfl⟩
  obtain ⟨s, hbefore, hafter⟩ := Writing.run_append.mp hrun
  have hs : s.mode = mode := TextWrites.mode_of_run hbefore
  have hr : r.mode = mode := (TextWrites.mode_of_run hafter).trans hs
  refine Writing.run_append.mpr ⟨_, TextWrites.run_of_fixed hbefore .words, ?_⟩
  refine Writing.run_cons.mpr ⟨_, .mode rfl htype, ?_⟩
  have hafter := TextWrites.run_of_fixed hafter mode
  rw [show ({ r with mode := mode } : TextParameters) = r by rw [← hr]] at hafter
  exact hafter

theorem fullText_congr {fixed : Option MatchMode}
    (hspec : spec.parameters "query" = spec'.parameters "query")
    (h : fullText kind fixed (.obj [(field, spec)]) = .ok p) :
    fullText kind fixed (.obj [(field, spec')]) = .ok p := by
  obtain ⟨_, _, r, text, hbody, hname, hrun, htext, rfl⟩ := fullText_eq_ok.mp h
  obtain ⟨rfl, rfl⟩ : field = _ ∧ spec = _ := by simpa using hbody
  exact fullText_eq_ok.mpr ⟨field, spec', r, text, rfl, hname, hspec ▸ hrun, htext, rfl⟩

theorem term_congr (hspec : spec.parameters "value" = spec'.parameters "value")
    (h : term (.obj [(field, spec)]) = .ok p) : term (.obj [(field, spec')]) = .ok p := by
  obtain ⟨_, _, r, value, hbody, hname, hrun, hvalue, rfl⟩ := term_eq_ok.mp h
  obtain ⟨rfl, rfl⟩ : field = _ ∧ spec = _ := by simpa using hbody
  exact term_eq_ok.mpr ⟨field, spec', r, value, rfl, hname, hspec ▸ hrun, hvalue, rfl⟩

theorem startsWith_congr (hspec : spec.parameters "value" = spec'.parameters "value")
    (h : startsWith (.obj [(field, spec)]) = .ok p) :
    startsWith (.obj [(field, spec')]) = .ok p := by
  obtain ⟨_, _, r, text, hbody, hname, hrun, htext, rfl⟩ := startsWith_eq_ok.mp h
  obtain ⟨rfl, rfl⟩ : field = _ ∧ spec = _ := by simpa using hbody
  exact startsWith_eq_ok.mpr ⟨field, spec', r, text, rfl, hname, hspec ▸ hrun, htext, rfl⟩

/-- Parameters may be written out where a kind knows what a value stands for. -/
theorem simple_congr {name : String} (hkind : (kind, name) ∈ mainParameters)
    (hspec : spec.parameters name = spec'.parameters name)
    (h : simple kind (.obj [(field, spec)]) = .ok p) :
    simple kind (.obj [(field, spec')]) = .ok p := by
  simp only [mainParameters, List.mem_cons, Prod.mk.injEq, List.not_mem_nil, or_false] at hkind
  rcases hkind with ⟨rfl, rfl⟩ | ⟨rfl, rfl⟩ | ⟨rfl, rfl⟩ | ⟨rfl, rfl⟩ | ⟨rfl, rfl⟩
  · exact fullText_congr hspec h
  · exact fullText_congr hspec h
  · exact fullText_congr hspec h
  · exact term_congr hspec h
  · exact startsWith_congr hspec h

theorem simple_phrase {type : String} {before after : List (String × Json)}
    (hkind : (kind, type) ∈ phraseTypes)
    (h : simple kind (.obj [(field, .obj (before ++ after))]) = .ok p) :
    simple "match" (.obj [(field, .obj (before ++ ("type", .str type) :: after))]) = .ok p := by
  simp only [phraseTypes, List.mem_cons, Prod.mk.injEq, List.not_mem_nil, or_false] at hkind
  rcases hkind with ⟨rfl, rfl⟩ | ⟨rfl, rfl⟩
  · exact fullText_phrase (fun _ => rfl) h
  · exact fullText_phrase (fun _ => rfl) h

theorem ids_enlisted {before after : List (String × Json)} {key : String} (hkey : key ∈ idLists)
    {s : Scalar} (h : ids (.obj (before ++ (key, s.toJson) :: after)) = .ok p) :
    ids (.obj (before ++ (key, .arr [s.toJson]) :: after)) = .ok p := by
  obtain ⟨_, r, values, hbody, hrun, hvalues, rfl⟩ := ids_eq_ok.mp h
  cases hbody
  refine ids_eq_ok.mpr ⟨_, r, values, rfl, ?_, hvalues, rfl⟩
  refine hrun.replace fun w hw => ?_
  have hlisted : ∀ {texts}, List.Forall₂ Json.IsSpelt s.toJson.listed texts →
      List.Forall₂ Json.IsSpelt (Json.arr [s.toJson]).listed texts := by
    rw [Json.listed_toJson]
    exact id
  cases hw with
  | types hkey h => exact .types hkey (hlisted h)
  | values h => exact .values (hlisted h)
  | boost => exact absurd hkey (by decide)

/-- Clauses that are read alike may stand for each other. -/
theorem ClauseWrites.replace {g : ClauseGroup} {v v' : Json}
    (h : ∀ ps, List.Forall₂ (fun c p => Predicate.ofJson c = .ok p) v.listed ps →
      List.Forall₂ (fun c p => Predicate.ofJson c = .ok p) v'.listed ps) {key : String}
    (hkey : key = g.key) {w : BoolClauses Predicate → BoolClauses Predicate}
    (hw : ClauseWrites key v w) : ClauseWrites key v' w := by
  cases hw with
  | group g' hps => exact .group g' (h _ hps)
  | threshold | boost => cases g <;> exact absurd hkey (by decide)

end Query

/-- **One step does not change what is read.** -/
theorem Json.Expands.ofJson_eq_ok {q q' : Json} (h : q.Expands q') :
    ∀ {p : Predicate}, Predicate.ofJson q = .ok p → Predicate.ofJson q' = .ok p := by
  have hclauses : ∀ {before : List (String × Json)} {g : ClauseGroup} {v v' : Json}
      {after : List (String × Json)},
      (∀ ps, List.Forall₂ (fun c p => Predicate.ofJson c = .ok p) v.listed ps →
        List.Forall₂ (fun c p => Predicate.ofJson c = .ok p) v'.listed ps) →
      ∀ {p : Predicate}, Predicate.ofJson (boolWith before g v after) = .ok p →
        Predicate.ofJson (boolWith before g v' after) = .ok p := by
    intro before g v v' after hlisted p hp
    obtain ⟨groups, hrun, rfl⟩ := Predicate.ofJson_bool_eq_ok.mp hp
    exact Predicate.ofJson_bool_eq_ok.mpr
      ⟨groups, hrun.replace fun w => ClauseWrites.replace hlisted rfl, rfl⟩
  induction h with
  | alone =>
    -- a query that stands alone is the list of it
    refine fun {_} => hclauses fun ps hps => ?_
    exact hps
  | scalar hkind s =>
    intro p hp
    have hne := ne_bool_of_mainParameters hkind
    rw [ofField, Predicate.ofJson_of_ne_bool hne] at hp ⊢
    exact simple_congr hkind (parameters_toJson _ s) hp
  | phrase hkind =>
    intro p hp
    have hne := ne_bool_of_phraseTypes hkind
    rw [ofField, Predicate.ofJson_of_ne_bool hne] at hp
    rw [ofField, Predicate.ofJson_of_ne_bool (by decide)]
    exact simple_phrase hkind hp
  | ids hkey s =>
    intro p hp
    rw [Predicate.ofJson_of_ne_bool (by decide)] at hp ⊢
    exact ids_enlisted hkey hp
  | clause h ih =>
    refine fun {_} => hclauses fun ps hps => ?_
    rw [h.listed_left] at hps
    rw [h.listed_right]
    cases hps with
    | cons hp hnil => exact .cons (ih hp) hnil
  | item h ih => exact fun {_} => hclauses fun ps => forall₂_replace fun _ => ih

/-! ### Everything is written out step by step -/

namespace Json

theorem expands_desugarScalar (kind field : String) (spec : Json) :
    ReflTransGen Expands (ofField kind field spec)
      (ofField kind field (desugarScalar kind spec)) := by
  unfold desugarScalar
  split
  · next name hname =>
    unfold spelled
    split
    · next s hs =>
      obtain rfl := Scalar.ofJson?_eq_some.mp hs
      exact .single (.scalar (mem_mainParameters_iff.mpr hname) s)
    · exact .refl
  · exact .refl

theorem expands_desugarPhrase (kind field : String) (spec : Json) :
    ReflTransGen Expands (ofField kind field spec) (desugarPhrase kind field spec) := by
  unfold desugarPhrase
  split
  · next type params htype =>
    have hstep : Expands (ofField kind field (.obj (params ++ [])))
        (ofField "match" field (.obj (params ++ [("type", .str type)]))) :=
      .phrase (mem_phraseTypes_iff.mpr htype)
    rw [List.append_nil] at hstep
    exact .single hstep
  · exact .refl

theorem expands_desugarIds (before params : List (String × Json)) :
    ReflTransGen Expands (.obj [("ids", .obj (before ++ params))])
      (.obj [("ids", .obj (before ++ params.map desugarIds))]) := by
  induction params generalizing before with
  | nil => exact .refl
  | cons m params ih =>
    have hrest := ih (before ++ [desugarIds m])
    rw [List.append_assoc, List.append_assoc] at hrest
    refine .trans ?_ hrest
    obtain ⟨key, v⟩ := m
    unfold desugarIds
    split
    · next hkey =>
      unfold enlisted
      split
      · next s hs =>
        obtain rfl := Scalar.ofJson?_eq_some.mp hs
        exact .single (.ids hkey s)
      · exact .refl
    · exact .refl

theorem expands_desugarLeaf (kind : String) (body : Json) :
    ReflTransGen Expands (.obj [(kind, body)]) (desugarLeaf kind body) := by
  unfold desugarLeaf
  split
  · next hkind =>
    subst hkind
    split
    · exact expands_desugarIds [] _
    · exact .refl
  · split
    · next field spec =>
      exact (expands_desugarScalar kind field spec).trans (expands_desugarPhrase kind field _)
    · exact .refl

/-- Steps in a query of a list are steps of the query that holds it. -/
theorem reflTransGen_item {before after : List (String × Json)} (g : ClauseGroup)
    (ahead behind : List Json) {v v' : Json} (h : ReflTransGen Expands v v') :
    ReflTransGen Expands (boolWith before g (.arr (ahead ++ v :: behind)) after)
      (boolWith before g (.arr (ahead ++ v' :: behind)) after) := by
  induction h with
  | refl => exact .refl
  | tail _ hstep ih => exact ih.tail (.item hstep)

mutual

/-- **Everything is written out step by step.** -/
theorem expands_desugar : ∀ q : Json, ReflTransGen Expands q q.desugar
  | .obj [(kind, body)] => by
    by_cases hkind : kind = "bool"
    · subst hkind
      cases body with
      | obj ms =>
        rw [desugar, if_pos rfl]
        exact expands_desugarMembers [] ms
      | _ =>
        simp only [desugar, if_pos]
        exact .refl
    · have hleaf : desugar (.obj [(kind, body)]) = desugarLeaf kind body := by
        cases body <;> simp [desugar, hkind]
      rw [hleaf]
      exact expands_desugarLeaf kind body
  | .obj [] => .refl
  | .obj (_ :: _ :: _) => .refl
  | .null => .refl
  | .bool _ => .refl
  | .num _ => .refl
  | .str _ => .refl
  | .arr _ => .refl

theorem expands_desugarMembers : ∀ before ms : List (String × Json),
    ReflTransGen Expands (.obj [("bool", .obj (before ++ ms))])
      (.obj [("bool", .obj (before ++ desugarMembers ms))])
  | before, [] => .refl
  | before, (key, v) :: rest => by
    have hrest : ∀ v', ReflTransGen Expands (.obj [("bool", .obj (before ++ (key, v') :: rest))])
        (.obj [("bool", .obj (before ++ (key, v') :: desugarMembers rest))]) := by
      intro v'
      have h := expands_desugarMembers (before ++ [(key, v')]) rest
      rwa [List.append_assoc, List.append_assoc] at h
    refine .trans ?_ (hrest _)
    by_cases hkey : key ∈ groupNames
    · obtain ⟨g, rfl⟩ := mem_groupNames_iff.mp hkey
      rw [if_pos hkey]
      cases v with
      | obj ms =>
        have halone : Expands (boolWith before g (.obj ms) rest)
            (boolWith before g (.arr [.obj ms]) rest) := .alone
        exact .head halone (reflTransGen_item g [] [] (expands_desugar (.obj ms)))
      | arr items => exact expands_desugarItems before g [] items rest
      | _ => exact .refl
    · rw [if_neg hkey]

theorem expands_desugarItems : ∀ (before : List (String × Json)) (g : ClauseGroup)
    (ahead items : List Json) (after : List (String × Json)),
    ReflTransGen Expands (boolWith before g (.arr (ahead ++ items)) after)
      (boolWith before g (.arr (ahead ++ desugarItems items)) after)
  | before, g, ahead, [], after => .refl
  | before, g, ahead, v :: rest, after => by
    have hrest := expands_desugarItems before g (ahead ++ [v.desugar]) rest after
    rw [List.append_assoc, List.append_assoc] at hrest
    refine .trans ?_ hrest
    exact reflTransGen_item g ahead rest (expands_desugar v)

end

/-! ### Nothing is left to write out -/

theorem spelled_ne_toJson (name : String) (v : Json) (s : Scalar) : v.spelled name ≠ s.toJson := by
  unfold spelled
  split
  · cases s <;> simp [Scalar.toJson]
  · next hv =>
    rintro rfl
    simp at hv

theorem enlisted_ne_toJson (v : Json) (s : Scalar) : v.enlisted ≠ s.toJson := by
  unfold enlisted
  split
  · cases s <;> simp [Scalar.toJson]
  · next hv =>
    rintro rfl
    simp at hv

theorem Expands.exists_eq_obj {v v' : Json} (h : Expands v v') :
    ∃ kind ms, v = .obj [(kind, .obj ms)] := by
  cases h <;> exact ⟨_, _, rfl⟩

theorem desugarScalar_ne_toJson {kind name : String} (hkind : (kind, name) ∈ mainParameters)
    (spec : Json) (s : Scalar) : desugarScalar kind spec ≠ s.toJson := by
  rw [desugarScalar, mem_mainParameters_iff.mp hkind]
  exact spelled_ne_toJson name spec s

theorem mem_desugarItems {v : Json} {qs : List Json} (h : v ∈ desugarItems qs) :
    ∃ q : Json, v = q.desugar := by
  induction qs with
  | nil => simp [desugarItems] at h
  | cons q qs ih =>
    rw [desugarItems] at h
    rcases List.mem_cons.mp h with rfl | h
    · exact ⟨q, rfl⟩
    · exact ih h

/-- What stands for a group that is written out is a list of queries that are, or nothing that
could be read. -/
theorem mem_desugarMembers {g : ClauseGroup} {v : Json} {ms : List (String × Json)}
    (h : (g.key, v) ∈ desugarMembers ms) :
    (∃ qs, v = .arr (desugarItems qs)) ∨ (∀ ns, v ≠ .obj ns) ∧ (∀ items, v ≠ .arr items) := by
  induction ms with
  | nil => simp [desugarMembers] at h
  | cons m ms ih =>
    obtain ⟨key, u⟩ := m
    rw [desugarMembers] at h
    rcases List.mem_cons.mp h with hm | h
    · obtain ⟨rfl, hv⟩ := Prod.mk.inj hm
      rw [if_pos (mem_groupNames_iff.mpr ⟨g, rfl⟩)] at hv
      cases u with
      | obj ns => exact .inl ⟨[.obj ns], hv⟩
      | arr items => exact .inl ⟨items, hv⟩
      | _ =>
        rw [hv]
        exact .inr ⟨fun _ h => (nomatch h), fun _ h => (nomatch h)⟩
    · exact ih h

/-- A query that is written out is a boolean query, another query, or none at all. -/
theorem desugar_cases (q : Json) :
    (∃ ms, q.desugar = .obj [("bool", .obj (desugarMembers ms))]) ∨
      (∃ kind body, kind ≠ "bool" ∧ q.desugar = desugarLeaf kind body) ∨
        ∀ kind ms, q.desugar ≠ .obj [(kind, .obj ms)] := by
  match q with
  | .obj [(kind, body)] =>
    by_cases hkind : kind = "bool"
    · subst hkind
      cases body with
      | obj ms => exact .inl ⟨ms, by rw [desugar, if_pos rfl]⟩
      | _ => exact .inr (.inr (by simp [desugar]))
    · exact .inr (.inl ⟨kind, body, hkind, by cases body <;> simp [desugar, hkind]⟩)
  | .obj [] => exact .inr (.inr (by simp [desugar]))
  | .obj (_ :: _ :: _) => exact .inr (.inr (by simp [desugar]))
  | .null => exact .inr (.inr (by simp [desugar]))
  | .bool _ => exact .inr (.inr (by simp [desugar]))
  | .num _ => exact .inr (.inr (by simp [desugar]))
  | .str _ => exact .inr (.inr (by simp [desugar]))
  | .arr _ => exact .inr (.inr (by simp [desugar]))

/-- What a query without queries in it is written out as: identifiers, a match with a mode,
something that is asked of a field, or something that could not be read. -/
theorem desugarLeaf_cases (kind : String) (body : Json) :
    (∃ params : List (String × Json), kind = "ids" ∧
      desugarLeaf kind body = .obj [(kind, .obj (params.map desugarIds))]) ∨
    (∃ field params, desugarLeaf kind body = ofField "match" field (.obj params)) ∨
    (∃ field spec, kind ≠ "ids" ∧
      desugarLeaf kind body = ofField kind field (desugarScalar kind spec) ∧
      ∀ params, desugarScalar kind spec = .obj params → phraseTypes.lookup kind = none) ∨
    desugarLeaf kind body = .obj [(kind, body)] ∧ (kind = "ids" → ∀ params, body ≠ .obj params) ∧
      (kind ≠ "ids" → ∀ field spec, body ≠ .obj [(field, spec)]) := by
  unfold desugarLeaf
  split
  · next hkind =>
    split
    · exact .inl ⟨_, hkind, rfl⟩
    · next hbody => exact .inr (.inr (.inr ⟨rfl, fun _ => hbody, fun hne => absurd hkind hne⟩))
  · next hkind =>
    split
    · next field spec =>
      unfold desugarPhrase
      split
      · exact .inr (.inl ⟨field, _, rfl⟩)
      · next hne =>
        refine .inr (.inr (.inl ⟨field, spec, hkind, rfl, fun params hparams => ?_⟩))
        cases htype : phraseTypes.lookup kind with
        | none => rfl
        | some type => exact (hne type params htype hparams).elim
    · next hbody =>
      exact .inr (.inr (.inr ⟨rfl, fun h => absurd h hkind, fun _ => hbody⟩))

theorem enlisted_of_mem {key : String} {v : Json} {params : List (String × Json)}
    (hkey : key ∈ idLists) (h : (key, v) ∈ params.map desugarIds) : ∃ u : Json, v = u.enlisted := by
  obtain ⟨⟨name, u⟩, -, hm⟩ := List.mem_map.mp h
  unfold desugarIds at hm
  split at hm
  · cases hm
    exact ⟨u, rfl⟩
  · next hname =>
    cases hm
    exact absurd hkey hname

theorem toJson_ne_obj (s : Scalar) (ms : List (String × Json)) : s.toJson ≠ .obj ms := by
  cases s <;> simp [Scalar.toJson]

theorem obj_singleton_inj {name name' : String} {v v' : Json} :
    Json.obj [(name, v)] = .obj [(name', v')] ↔ name = name' ∧ v = v' := by
  simp

theorem Expands.ne_desugarLeaf {kind : String} (hkind : kind ≠ "bool") (body : Json) {v v' : Json}
    (h : Expands v v') : v ≠ desugarLeaf kind body := by
  intro hv
  rcases desugarLeaf_cases kind body with ⟨params, rfl, hleaf⟩ | ⟨field, params, hleaf⟩ |
    ⟨field, spec, hids, hleaf, hphrase⟩ | ⟨hleaf, hids, hother⟩
  · -- identifiers: every value in the place of a list is a list
    rw [hleaf] at hv
    cases h with
    | alone | clause | item => exact absurd (obj_singleton_inj.mp hv).1 (by decide)
    | scalar hmain s =>
      obtain ⟨rfl, -⟩ := obj_singleton_inj.mp hv
      exact absurd hmain (by simp [mainParameters])
    | phrase htype =>
      obtain ⟨rfl, -⟩ := obj_singleton_inj.mp hv
      exact absurd htype (by simp [phraseTypes])
    | @ids before key after hkey s =>
      have hparams := obj.inj (obj_singleton_inj.mp hv).2
      have hmem : (key, s.toJson) ∈ params.map desugarIds := by
        rw [← hparams]
        simp
      obtain ⟨u, hu⟩ := enlisted_of_mem hkey hmem
      exact enlisted_ne_toJson u s hu.symm
  · -- a match with a mode: its parameters are written out, and so is its kind
    rw [hleaf] at hv
    cases h with
    | alone | clause | item => exact absurd (obj_singleton_inj.mp hv).1 (by decide)
    | scalar hmain s =>
      exact toJson_ne_obj s _ (obj_singleton_inj.mp (obj_singleton_inj.mp hv).2).2
    | phrase htype =>
      obtain ⟨rfl, -⟩ := obj_singleton_inj.mp hv
      exact absurd htype (by simp [phraseTypes])
    | ids => exact absurd (obj_singleton_inj.mp hv).1 (by decide)
  · -- something that is asked of a field, written out as far as its kind allows
    rw [hleaf] at hv
    cases h with
    | alone | clause | item => exact hkind (obj_singleton_inj.mp hv).1.symm
    | scalar hmain s =>
      obtain ⟨rfl, hbody⟩ := obj_singleton_inj.mp hv
      exact desugarScalar_ne_toJson hmain spec s (obj_singleton_inj.mp hbody).2.symm
    | phrase htype =>
      obtain ⟨rfl, hbody⟩ := obj_singleton_inj.mp hv
      rw [mem_phraseTypes_iff, hphrase _ (obj_singleton_inj.mp hbody).2.symm] at htype
      cases htype
    | ids => exact hids (obj_singleton_inj.mp hv).1.symm
  · -- something that could not be read
    rw [hleaf] at hv
    cases h with
    | alone | clause | item => exact hkind (obj_singleton_inj.mp hv).1.symm
    | scalar hmain s =>
      obtain ⟨rfl, rfl⟩ := obj_singleton_inj.mp hv
      refine hother ?_ _ _ rfl
      rintro rfl
      exact absurd hmain (by simp [mainParameters])
    | phrase htype =>
      obtain ⟨rfl, rfl⟩ := obj_singleton_inj.mp hv
      refine hother ?_ _ _ rfl
      rintro rfl
      exact absurd htype (by simp [phraseTypes])
    | ids =>
      obtain ⟨rfl, rfl⟩ := obj_singleton_inj.mp hv
      exact hids rfl _ rfl

theorem Expands.ne_desugar {v v' : Json} (h : Expands v v') : ∀ q : Json, v ≠ q.desugar := by
  -- a group of a desugared query is a list of such queries, so no object and no other list
  have hgroup : ∀ {before : List (String × Json)} {g : ClauseGroup} {u : Json}
      {after : List (String × Json)} {u'}, Expands (boolWith before g u after) u' →
      ((∃ ns, u = .obj ns) ∨ ∃ items, u = .arr items ∧ ∀ qs, items ≠ desugarItems qs) →
      ∀ q : Json, boolWith before g u after ≠ q.desugar := by
    intro before g u after u' h hu q hq
    rcases desugar_cases q with ⟨ms, hms⟩ | ⟨kind, body, hkind, hleaf⟩ | hne
    · rw [hms] at hq
      have hmem : (g.key, u) ∈ desugarMembers ms := by
        simp only [boolWith, obj.injEq, List.cons.injEq, Prod.mk.injEq, and_true, true_and] at hq
        rw [← hq]
        simp
      rcases mem_desugarMembers hmem with ⟨qs, rfl⟩ | ⟨hobj, harr⟩
      · rcases hu with ⟨ns, hns⟩ | ⟨items, hitems, hnone⟩
        · cases hns
        · cases hitems
          exact hnone qs rfl
      · rcases hu with ⟨ns, hns⟩ | ⟨items, hitems, -⟩
        · exact hobj ns hns
        · exact harr items hitems
    · exact h.ne_desugarLeaf hkind body (hq.trans hleaf)
    · exact hne _ _ hq.symm
  have hleaf : ∀ {kind : String} {ms : List (String × Json)} {u'}, kind ≠ "bool" →
      Expands (.obj [(kind, .obj ms)]) u' → ∀ q : Json, .obj [(kind, .obj ms)] ≠ q.desugar := by
    intro kind ms u' hkind h q hq
    rcases desugar_cases q with ⟨ms, hms⟩ | ⟨kind', body, hkind', hleaf⟩ | hne
    · rw [hms] at hq
      cases hq
      exact hkind rfl
    · exact h.ne_desugarLeaf hkind' body (hq.trans hleaf)
    · exact hne _ _ hq.symm
  induction h with
  | alone => exact hgroup .alone (.inl ⟨_, rfl⟩)
  | scalar hmain s => exact hleaf (ne_bool_of_mainParameters hmain) (.scalar hmain s)
  | phrase hphrase => exact hleaf (ne_bool_of_phraseTypes hphrase) (.phrase hphrase)
  | ids hkey s => exact hleaf (by decide) (.ids hkey s)
  | clause h =>
    obtain ⟨kind, ms, rfl⟩ := h.exists_eq_obj
    exact hgroup (.clause h) (.inl ⟨_, rfl⟩)
  | item h ih =>
    refine hgroup (.item h) (.inr ⟨_, rfl, fun qs hqs => ?_⟩)
    obtain ⟨q, hq⟩ := mem_desugarItems (hqs ▸ List.mem_append_right _ List.mem_cons_self)
    exact ih q hq

/-- **Nothing is left to write out.** -/
theorem not_expands_desugar (q v : Json) : ¬ Expands q.desugar v :=
  fun h => h.ne_desugar q rfl

end Json

namespace Predicate

/-- **Short spellings are read as what they are short for**: all of them may be written out,
and any of them. -/
theorem ofJson_desugar {q : Json} {p : Predicate} (h : ofJson q = .ok p) :
    ofJson q.desugar = .ok p ∧ ∀ q', ReflTransGen Json.Expands q q' → ofJson q' = .ok p := by
  have hsteps : ∀ q', ReflTransGen Json.Expands q q' → ofJson q' = .ok p := by
    intro q' hq'
    induction hq' with
    | refl => exact h
    | tail _ hstep ih => exact hstep.ofJson_eq_ok ih
  exact ⟨hsteps _ q.expands_desugar, hsteps⟩

/-- Three short spellings, one in the other. -/
theorem ofJson_desugar_phrase :
    let phrase : Json := .obj [("match_phrase", .obj [("title", .str "set sail")])]
    let q : Json := .obj [("bool", .obj [("must", phrase)])]
    let p : Predicate := .bool
      { must := [.fullText "title" ⟨"set sail", .or, .none, .phrase⟩ none] }
    ofJson q = .ok p ∧ ofJson q.desugar = .ok p ∧
      ofJson (.obj [("bool", .obj [("must", .arr [phrase])])]) = .ok p := by
  intro phrase q p
  have h : ofJson q = .ok p := by rfl
  have hstep : (Json.boolWith [] .must phrase []).Expands
      (Json.boolWith [] .must (.arr [phrase]) []) := .alone
  obtain ⟨hdesugar, hsteps⟩ := ofJson_desugar h
  exact ⟨h, hdesugar, hsteps _ (.single hstep)⟩

end Predicate

/-- What the three are short for. -/
example : (Json.obj [("bool", .obj [("must",
    .obj [("match_phrase", .obj [("title", .str "set sail")])])])]).desugar =
    .obj [("bool", .obj [("must", .arr [.obj [("match", .obj [("title",
      .obj [("query", .str "set sail"), ("type", .str "phrase")])])]])])] := by
  rfl

end DocSearch
