import DocSearch.Proofs.Query.Commuting
import DocSearch.Proofs.Query.Faithful

/-!
# The order of members

Where each name stands once, the members of a query may stand in any order: each of them writes
into a slot of its own.  Only the bounds of a range are kept in the order of their members.

Two bodies have two names for one slot: `type` and `types` of a query for identifiers, `value`
and `prefix` of a query for a prefix.  Both may be given, and then the last one counts; so for
such a query the order matters, although not for whether it is read.

## Main definitions

* `Predicate.Alike` — two predicates differ only in the order of the bounds of ranges.
* `Json.Ambiguous` — a query gives one thing under two names.

## Main results

* `Predicate.ofJson_reordered` — **a query is read in any order of members, and as the same
  predicate unless it is ambiguous**.
* `Predicate.ambiguous_ids_order` — the order matters for an ambiguous query.
-/

namespace DocSearch

open Members Query

/-! ### What is read alike, and what is ambiguous -/

/-- Two predicates differ only in the order of the bounds of ranges; if `loose` holds, also in
the types of identifiers and the texts of prefixes. -/
inductive Predicate.Alike (loose : Prop) : Predicate → Predicate → Prop
  /-- They do not differ. -/
  | same (p : Predicate) : Alike loose p p
  /-- Two ranges with the same bounds. -/
  | range {field bounds bounds'} (h : List.Perm bounds bounds') :
    Alike loose (.range field bounds) (.range field bounds')
  /-- The same identifiers. -/
  | ids (types types' values) (h : loose) : Alike loose (.ids types values) (.ids types' values)
  /-- Two prefixes of the same field. -/
  | startsWith (field text text') (h : loose) :
    Alike loose (.startsWith field text) (.startsWith field text')
  /-- Two boolean combinations of predicates that are alike. -/
  | bool {groups groups' : BoolClauses Predicate}
    (hclauses : ∀ g : ClauseGroup, List.Forall₂ (Alike loose) (g.get groups) (g.get groups'))
    (hraw : groups.minimumShouldMatch = groups'.minimumShouldMatch) :
    Alike loose (.bool groups) (.bool groups')

/-- A query gives one thing under two names. -/
inductive Json.Ambiguous : Json → Prop
  /-- The types of identifiers. -/
  | ids {params} (htype : "type" ∈ names params) (htypes : "types" ∈ names params) :
    Ambiguous (.obj [("ids", .obj params)])
  /-- The text of a prefix. -/
  | startsWith {field params} (hvalue : "value" ∈ names params)
    (htext : "prefix" ∈ names params) :
    Ambiguous (.obj [("prefix", .obj [(field, .obj params)])])
  /-- A query in a boolean query does. -/
  | bool {ms m c} (hm : m ∈ ms) (hc : c ∈ Json.listed m.2) (h : Ambiguous c) :
    Ambiguous (.obj [("bool", .obj ms)])

namespace Query

/-! ### Bodies -/

section Bodies

variable {kind : String} {body body' : Json} {p : Predicate}

theorem fullText_reordered {fixed : Option MatchMode} (hbody : body.Distinct)
    (hreordered : body.Reordered body') (h : fullText kind fixed body = .ok p) :
    fullText kind fixed body' = .ok p := by
  obtain ⟨field, spec, r, text, rfl, hname, hrun, htext, rfl⟩ := fullText_eq_ok.mp h
  obtain ⟨spec', rfl, hspec⟩ := Json.reordered_singleton_iff.mp hreordered
  have hnames := nodup_names_parameters (Json.distinct_singleton_iff.mp hbody) "query"
  have hrun' := hrun.reordered_same TextWrites.isFlat hnames
    (fun _ _ _ _ => TextWrites.commute) (hspec.parameters "query")
  exact fullText_eq_ok.mpr ⟨field, spec', r, text, rfl, hname, hrun', htext, rfl⟩

theorem multiField_reordered (hbody : body.Distinct) (hreordered : body.Reordered body')
    (h : multiField body = .ok p) : multiField body' = .ok p := by
  obtain ⟨params, r, text, rfl, hrun, htext, hne, rfl⟩ := multiField_eq_ok.mp h
  obtain ⟨params', rfl, hparams⟩ := Json.reordered_obj_iff.mp hreordered
  have hrun' := hrun.reordered_same MultiFieldWrites.isFlat (Json.distinct_obj_iff.mp hbody).1
    (fun _ _ _ _ => MultiFieldWrites.commute) hparams
  exact multiField_eq_ok.mpr ⟨params', r, text, rfl, hrun', htext, hne, rfl⟩

theorem term_reordered (hbody : body.Distinct) (hreordered : body.Reordered body')
    (h : term body = .ok p) : term body' = .ok p := by
  obtain ⟨field, spec, r, value, rfl, hname, hrun, hvalue, rfl⟩ := term_eq_ok.mp h
  obtain ⟨spec', rfl, hspec⟩ := Json.reordered_singleton_iff.mp hreordered
  have hnames := nodup_names_parameters (Json.distinct_singleton_iff.mp hbody) "value"
  have hflat : ∀ (v : Json) (s : Scalar), v = s.toJson → v.Flat := fun _ s h => h ▸ .scalar s
  have hrun' := hrun.reordered_same (ValueWrites.isFlat hflat) hnames
    (fun _ _ _ _ => ValueWrites.commute_of_name) (hspec.parameters "value")
  exact term_eq_ok.mpr ⟨field, spec', r, value, rfl, hname, hrun', hvalue, rfl⟩

theorem docType_reordered (hbody : body.Distinct) (hreordered : body.Reordered body')
    (h : docType body = .ok p) : docType body' = .ok p := by
  obtain ⟨params, r, value, rfl, hrun, hvalue, rfl⟩ := docType_eq_ok.mp h
  obtain ⟨params', rfl, hparams⟩ := Json.reordered_obj_iff.mp hreordered
  have hrun' := hrun.reordered_same (ValueWrites.isFlat fun _ _ h => h.flat)
    (Json.distinct_obj_iff.mp hbody).1 (fun _ _ _ _ => ValueWrites.commute_of_name) hparams
  exact docType_eq_ok.mpr ⟨params', r, value, rfl, hrun', hvalue, rfl⟩

theorem present_reordered (hbody : body.Distinct) (hreordered : body.Reordered body')
    (h : present body = .ok p) : present body' = .ok p := by
  obtain ⟨params, r, field, rfl, hrun, hfield, rfl⟩ := present_eq_ok.mp h
  obtain ⟨params', rfl, hparams⟩ := Json.reordered_obj_iff.mp hreordered
  have hflat : ∀ (v : Json) (name : String), NamesField v name → v.Flat :=
    fun _ name h => h.1 ▸ .scalar (.text name)
  have hrun' := hrun.reordered_same (ValueWrites.isFlat hflat) (Json.distinct_obj_iff.mp hbody).1
    (fun _ _ _ _ => ValueWrites.commute_of_name) hparams
  exact present_eq_ok.mpr ⟨params', r, field, rfl, hrun', hfield, rfl⟩

theorem matchAll_reordered (hbody : body.Distinct) (hreordered : body.Reordered body')
    (h : matchAll body = .ok p) : matchAll body' = .ok p := by
  obtain ⟨params, r, rfl, hrun, rfl⟩ := matchAll_eq_ok.mp h
  obtain ⟨params', rfl, hparams⟩ := Json.reordered_obj_iff.mp hreordered
  have hrun' := hrun.reordered_same (ValueWrites.isFlat fun _ _ h => h.elim)
    (Json.distinct_obj_iff.mp hbody).1 (fun _ _ _ _ hne => ValueWrites.commute hne fun _ => rfl)
    hparams
  exact matchAll_eq_ok.mpr ⟨params', r, rfl, hrun', rfl⟩

theorem terms_reordered (hreordered : body.Reordered body') (h : terms body = .ok p) :
    terms body' = .ok p := by
  obtain ⟨params, field, values, rfl, hboost, hvalues, hname, rfl⟩ := terms_eq_ok.mp h
  obtain ⟨params', rfl, hparams⟩ := Json.reordered_obj_iff.mp hreordered
  have hmember := besidesBoost_reordered hparams
  rw [hvalues] at hmember
  have hperm := perm_of_flat (by simpa using Json.Flat.list values) hmember
  exact terms_eq_ok.mpr ⟨params', field, values, rfl, hboost.reordered hparams,
    (List.singleton_perm.mp hperm).symm, hname, rfl⟩

/-- The bounds of a range are kept in the order of their members. -/
theorem range_reordered (loose : Prop) (hreordered : body.Reordered body')
    (h : range body = .ok p) : ∃ p', range body' = .ok p' ∧ p.Alike loose p' := by
  obtain ⟨field, params, bounds, rfl, hname, hboost, hbounds, hne, rfl⟩ := range_eq_ok.mp h
  obtain ⟨_, rfl, hspec⟩ := Json.reordered_singleton_iff.mp hreordered
  obtain ⟨params', rfl, hparams⟩ := Json.reordered_obj_iff.mp hspec
  have hmembers := besidesBoost_reordered hparams
  rw [hbounds] at hmembers
  have hflat : ∀ m ∈ boundMembers bounds, m.2.Flat := by
    intro m hm
    obtain ⟨b, -, rfl⟩ := List.mem_map.mp hm
    exact .scalar b.2
  have hperm := (perm_of_flat hflat hmembers).symm
  obtain ⟨bounds', hbounds', hperm⟩ :=
    (congrFun₂ (List.eq_map_comp_perm _) _ _).mpr hperm
  refine ⟨.range field bounds', ?_, .range hperm.symm⟩
  refine range_eq_ok.mpr ⟨field, params', bounds', rfl, hname, hboost.reordered hparams,
    hbounds', ?_, rfl⟩
  rintro rfl
  exact hne hperm.symm.eq_nil

/-- Of two names that do not both stand there, two different members do not have one each. -/
theorem not_other_name {keys : List String} {first last key key' : String}
    (hnot : ¬ (first ∈ keys ∧ last ∈ keys)) (hkey : key ∈ keys) (hkey' : key' ∈ keys)
    (hne : key ≠ key') (h : key = first ∨ key = last) : ¬ (key' = first ∨ key' = last) := by
  rintro (rfl | rfl) <;> rcases h with rfl | rfl
  · exact hne rfl
  · exact hnot ⟨hkey', hkey⟩
  · exact hnot ⟨hkey, hkey'⟩
  · exact hne rfl

/-- Of two names for the types the last one counts. -/
theorem ids_reordered {loose : Prop} (hloose : (Json.obj [("ids", body)]).Ambiguous → loose)
    (hbody : body.Distinct) (hreordered : body.Reordered body') (h : ids body = .ok p) :
    ∃ p', ids body' = .ok p' ∧ p.Alike loose p' := by
  obtain ⟨params, r, values, rfl, hrun, hvalues, rfl⟩ := ids_eq_ok.mp h
  obtain ⟨params', rfl, hparams⟩ := Json.reordered_obj_iff.mp hreordered
  have hnames := (Json.distinct_obj_iff.mp hbody).1
  by_cases hambiguous : "type" ∈ names params ∧ "types" ∈ names params
  · obtain ⟨r', hrun', hslot⟩ := hrun.reordered IdsWrites.isFlat IdsWrites.local_snd hnames
      (fun _ _ _ _ => IdsWrites.commute_snd) hparams
    exact ⟨.ids r'.1 values,
      ids_eq_ok.mpr ⟨params', r', values, rfl, hrun', hslot.trans hvalues, rfl⟩,
      .ids _ _ _ (hloose (.ids hambiguous.1 hambiguous.2))⟩
  · have hrun' := hrun.reordered_same IdsWrites.isFlat hnames
      (fun key hkey key' hkey' hne =>
        IdsWrites.commute hne (not_other_name hambiguous hkey hkey' hne)) hparams
    exact ⟨_, ids_eq_ok.mpr ⟨params', r, values, rfl, hrun', hvalues, rfl⟩, .same _⟩

/-- Of two names for the text the last one counts. -/
theorem startsWith_reordered {loose : Prop}
    (hloose : (Json.obj [("prefix", body)]).Ambiguous → loose) (hbody : body.Distinct)
    (hreordered : body.Reordered body') (h : startsWith body = .ok p) :
    ∃ p', startsWith body' = .ok p' ∧ p.Alike loose p' := by
  obtain ⟨field, spec, r, text, rfl, hname, hrun, htext, rfl⟩ := startsWith_eq_ok.mp h
  obtain ⟨spec', rfl, hspec⟩ := Json.reordered_singleton_iff.mp hreordered
  have hnames := nodup_names_parameters (Json.distinct_singleton_iff.mp hbody) "value"
  have hparams := hspec.parameters "value"
  have hflat : Writing.IsFlat (ValueWrites (fun key => key = "value" || key = "prefix")
      Json.IsSpelt) := ValueWrites.isFlat fun _ _ h => h.flat
  by_cases hambiguous : "value" ∈ names (spec.parameters "value") ∧
      "prefix" ∈ names (spec.parameters "value")
  · obtain ⟨r', hrun', hslot⟩ := hrun.reordered hflat ValueWrites.local_isSome hnames
      (fun key _ key' _ _ => ValueWrites.commute_isSome key key') hparams
    simp only [htext] at hslot
    obtain ⟨text', htext'⟩ := Option.isSome_iff_exists.mp hslot
    refine ⟨.startsWith field text',
      startsWith_eq_ok.mpr ⟨field, spec', r', text', rfl, hname, hrun', htext', rfl⟩,
      .startsWith _ _ _ (hloose ?_)⟩
    -- a value that stands alone has one name only
    cases spec with
    | obj params => exact .startsWith hambiguous.1 hambiguous.2
    | _ => simp [Json.parameters, names] at hambiguous
  · have hcommute : ∀ key ∈ names (spec.parameters "value"),
        ∀ key' ∈ names (spec.parameters "value"), key ≠ key' → Writing.Commute
          (ValueWrites (fun key => key = "value" || key = "prefix") Json.IsSpelt) id key key' := by
      intro key hkey key' hkey' hne
      refine ValueWrites.commute hne fun hvalue => Bool.eq_false_iff.mpr ?_
      simp only [ne_eq, Bool.or_eq_true, decide_eq_true_eq] at hvalue ⊢
      exact not_other_name hambiguous hkey hkey' hne hvalue
    have hrun' := hrun.reordered_same hflat hnames hcommute hparams
    exact ⟨_, startsWith_eq_ok.mpr ⟨field, spec', r, text, rfl, hname, hrun', htext, rfl⟩,
      .same _⟩

theorem simple_reordered {loose : Prop} (hloose : (Json.obj [(kind, body)]).Ambiguous → loose)
    (hbody : body.Distinct) (hreordered : body.Reordered body') (h : simple kind body = .ok p) :
    ∃ p', simple kind body' = .ok p' ∧ p.Alike loose p' := by
  unfold simple at h
  split at h
  · exact ⟨p, matchAll_reordered hbody hreordered h, .same p⟩
  · exact ⟨p, fullText_reordered hbody hreordered h, .same p⟩
  · exact ⟨p, fullText_reordered hbody hreordered h, .same p⟩
  · exact ⟨p, fullText_reordered hbody hreordered h, .same p⟩
  · exact ⟨p, multiField_reordered hbody hreordered h, .same p⟩
  · exact ⟨p, term_reordered hbody hreordered h, .same p⟩
  · exact ⟨p, terms_reordered hreordered h, .same p⟩
  · exact ⟨p, docType_reordered hbody hreordered h, .same p⟩
  · exact ids_reordered hloose hbody hreordered h
  · exact range_reordered loose hreordered h
  · exact ⟨p, present_reordered hbody hreordered h, .same p⟩
  · exact startsWith_reordered hloose hbody hreordered h
  · cases h

end Bodies

end Query

/-! ### Queries -/

/-- Lists that are read, and lists of what they are reordered to, are read alike. -/
theorem exists_forall₂_of_forall₂ {α β : Type} {R : α → β → Prop} {S : α → α → Prop}
    {T : β → β → Prop} {as as' : List α} {bs : List β} (hS : List.Forall₂ S as as')
    (hR : List.Forall₂ R as bs)
    (h : ∀ a ∈ as, ∀ a' b, S a a' → R a b → ∃ b', R a' b' ∧ T b b') :
    ∃ bs', List.Forall₂ R as' bs' ∧ List.Forall₂ T bs bs' := by
  induction hS generalizing bs with
  | nil =>
    cases hR
    exact ⟨[], .nil, .nil⟩
  | cons ha _ ih =>
    cases hR with
    | cons hb hbs =>
      rw [List.forall_mem_cons] at h
      obtain ⟨b', hb', hT⟩ := h.1 _ _ ha hb
      obtain ⟨bs', hbs', hTs⟩ := ih hbs h.2
      exact ⟨b' :: bs', .cons hb' hbs', .cons hT hTs⟩

namespace Query

/-- Two bodies of boolean queries hold clauses that are alike. -/
structure GroupsAlike (loose : Prop) (groups groups' : BoolClauses Predicate) : Prop where
  /-- The clauses of each group. -/
  clauses (g : ClauseGroup) :
    List.Forall₂ (Predicate.Alike loose) (g.get groups) (g.get groups')
  /-- How many of the last group are enough. -/
  threshold : groups.minimumShouldMatch = groups'.minimumShouldMatch

namespace GroupsAlike

variable {loose : Prop} {groups groups' : BoolClauses Predicate}

theorem empty : GroupsAlike loose {} {} :=
  ⟨fun g => by cases g <;> exact .nil, rfl⟩

theorem set {ps ps' : List Predicate} (h : GroupsAlike loose groups groups') (g : ClauseGroup)
    (hps : List.Forall₂ (Predicate.Alike loose) ps ps') :
    GroupsAlike loose (g.set ps groups) (g.set ps' groups') := by
  constructor
  · intro g'
    by_cases hg : g' = g
    · subst hg
      rw [ClauseGroup.get_set, ClauseGroup.get_set]
      exact hps
    · rw [ClauseGroup.get_set_of_ne hg, ClauseGroup.get_set_of_ne hg]
      exact h.clauses g'
  · cases g <;> exact h.threshold

theorem setThreshold (h : GroupsAlike loose groups groups') (raw : Option String) :
    GroupsAlike loose { groups with minimumShouldMatch := raw }
      { groups' with minimumShouldMatch := raw } := by
  refine ⟨fun g => ?_, rfl⟩
  have hg := h.clauses g
  cases g <;> exact hg

end GroupsAlike

/-- A member of a boolean query writes clauses that are alike, if they are read so. -/
theorem ClauseWrites.reordered {loose : Prop} {key : String} {v v' : Json}
    {w : BoolClauses Predicate → BoolClauses Predicate} (hw : ClauseWrites key v w)
    (hv : v.Reordered v')
    (hclauses : ∀ c ∈ v.listed, ∀ c' p, c.Reordered c' → Predicate.ofJson c = .ok p →
      ∃ p', Predicate.ofJson c' = .ok p' ∧ p.Alike loose p') :
    ∃ w', ClauseWrites key v' w' ∧ ∀ groups groups',
      GroupsAlike loose groups groups' → GroupsAlike loose (w groups) (w' groups') := by
  cases hw with
  | group g hps =>
    obtain ⟨ps', hps', halike⟩ := exists_forall₂_of_forall₂ hv.listed hps hclauses
    exact ⟨g.set ps', .group g hps', fun _ _ h => h.set g halike⟩
  | threshold hraw =>
    obtain rfl := (flat_of_threshold hraw).eq_of_reordered hv
    exact ⟨_, .threshold hraw, fun _ _ h => h.setThreshold _⟩
  | boost hx =>
    obtain rfl := hx.flat.eq_of_reordered hv
    exact ⟨_, .boost hx, fun _ _ h => h⟩

end Query

namespace Predicate

/-- A query that is read is read in any other order of members. -/
theorem exists_ofJson_reordered {loose : Prop} {q q' : Json} {p : Predicate}
    (hloose : q.Ambiguous → loose) (hq : q.Distinct) (hreordered : q.Reordered q')
    (h : ofJson q = .ok p) : ∃ p', ofJson q' = .ok p' ∧ p.Alike loose p' := by
  revert hloose hq q'
  refine reading_induction (motive := fun q p => ∀ {q'}, (q.Ambiguous → loose) → q.Distinct →
    q.Reordered q' → ∃ p', ofJson q' = .ok p' ∧ p.Alike loose p') ?_ ?_ h
  · intro kind body p hkind h q' hloose hq hq'
    obtain ⟨body', rfl, hbody'⟩ := Json.reordered_singleton_iff.mp hq'
    rw [ofJson_of_ne_bool hkind]
    exact simple_reordered hloose (Json.distinct_singleton_iff.mp hq) hbody' h
  · intro ms groups hrun ih q' hloose hq hq'
    obtain ⟨_, rfl, hbody'⟩ := Json.reordered_singleton_iff.mp hq'
    obtain ⟨ms', rfl, between, halike, hperm⟩ := Json.reordered_obj_iff.mp hbody'
    have hms := Json.distinct_obj_iff.mp (Json.distinct_singleton_iff.mp hq)
    have hnames : (names between).Nodup := (Members.forall₂_iff.mp halike).1 ▸ hms.1
    -- first the clauses are replaced where they stand, then the members change places
    have hwrites : ∀ m ∈ ms, ∀ v' w, ClauseWrites m.1 m.2 w → m.2.Reordered v' →
        ∃ w', ClauseWrites m.1 v' w' ∧ ∀ groups groups',
          GroupsAlike loose groups groups' → GroupsAlike loose (w groups) (w' groups') := by
      intro m hm v' w hw hv'
      refine hw.reordered hv' fun c hc c' p hc' hp => ih m hm c hc p hp ?_ ?_ hc'
      · exact fun hambiguous => hloose (.bool hm hc hambiguous)
      · exact Json.distinct_of_mem_listed (hms.2 m hm) hc
    obtain ⟨groups', hbetween, hgroups⟩ := hrun.alike hwrites halike .empty
    obtain ⟨t, hrun', ht⟩ := hbetween.perm (fun _ _ w _ _ _ hs => congrArg w hs) hperm hnames
      (fun _ _ _ _ => ClauseWrites.commute) rfl
    obtain rfl : t = groups' := ht
    exact ⟨.bool t, ofJson_bool_eq_ok.mpr ⟨t, hrun', rfl⟩,
      .bool hgroups.clauses hgroups.threshold⟩

/-- **A query is read in any order of members, and as the same predicate** up to the order of
the bounds of ranges, where each name stands once (`Json.distinct_of_read`).  If it gives one
thing under two names, then the order says which of the two counts. -/
theorem ofJson_reordered {q q' : Json} (hq : q.Distinct) (h : q.Reordered q') :
    ((∃ p, ofJson q = .ok p) ↔ ∃ p, ofJson q' = .ok p) ∧
      ∀ p p', ofJson q = .ok p → ofJson q' = .ok p' → p.Alike q.Ambiguous p' := by
  refine ⟨⟨?_, ?_⟩, ?_⟩
  · rintro ⟨p, hp⟩
    obtain ⟨p', hp', -⟩ := exists_ofJson_reordered id hq h hp
    exact ⟨p', hp'⟩
  · rintro ⟨p', hp'⟩
    obtain ⟨p, hp, -⟩ := exists_ofJson_reordered id (hq.reordered h) h.symm hp'
    exact ⟨p, hp⟩
  · intro p p' hp hp'
    obtain ⟨p'', hp'', halike⟩ := exists_ofJson_reordered id hq h hp
    rw [hp'] at hp''
    cases hp''
    exact halike

/-- A range and its bounds in a boolean query, and both the other way round. -/
theorem ofJson_reordered_bool :
    let q : Json := .obj [("bool", .obj [("boost", .num (.int 2)), ("must",
      .obj [("range", .obj [("n", .obj [("gte", .num (.int 1)), ("lt", .num (.int 5))])])])])]
    let q' : Json := .obj [("bool", .obj [("must",
      .obj [("range", .obj [("n", .obj [("lt", .num (.int 5)), ("gte", .num (.int 1))])])]),
      ("boost", .num (.int 2))])]
    let bounds := [(RangeOp.gte, Scalar.number (.int 1)), (RangeOp.lt, Scalar.number (.int 5))]
    q.Distinct ∧ q.Reordered q' ∧ ofJson q = .ok (.bool { must := [.range "n" bounds] }) ∧
      ofJson q' = .ok (.bool { must := [.range "n" bounds.reverse] }) ∧
      Alike q.Ambiguous (.bool { must := [.range "n" bounds] })
        (.bool { must := [.range "n" bounds.reverse] }) := by
  intro q q' bounds
  have hq : q.Distinct := by
    refine Json.distinct_singleton_iff.mpr (.obj (by decide) ?_)
    simp only [List.forall_mem_cons, Json.distinct_singleton_iff]
    refine ⟨.num _, .obj (by decide) ?_, by simp⟩
    simp only [List.forall_mem_cons]
    exact ⟨.num _, .num _, by simp⟩
  have hswap : ∀ {first last : String} {v v' w w' : Json}, v.Reordered v' → w.Reordered w' →
      (Json.obj [(first, v), (last, w)]).Reordered (.obj [(last, w'), (first, v')]) := by
    intro first last v v' w w' hv hw
    exact MembersReordered.obj
      ⟨[(first, v'), (last, w')], .cons ⟨rfl, hv⟩ (.cons ⟨rfl, hw⟩ .nil), .swap _ _ _⟩
  have h : q.Reordered q' := by
    simp only [q, q', Json.reordered_singleton_iff]
    refine ⟨_, rfl, hswap (.same _) ?_⟩
    simp only [Json.reordered_singleton_iff]
    exact ⟨_, rfl, _, rfl, hswap (.same _) (.same _)⟩
  have hp : ofJson q = .ok (.bool { must := [.range "n" bounds] }) := by rfl
  have hp' : ofJson q' = .ok (.bool { must := [.range "n" bounds.reverse] }) := by rfl
  exact ⟨hq, h, hp, hp', (ofJson_reordered hq h).2 _ _ hp hp'⟩

theorem Alike.types_eq {types types' values values' : List String}
    (h : Alike False (.ids types values) (.ids types' values')) : types = types' := by
  cases h with
  | same => rfl
  | ids _ _ _ h => exact h.elim

/-- Types under both of their names, in two orders. -/
theorem ambiguous_ids_order :
    let q : Json := .obj [("ids", .obj [("types", .arr [.str "b"]), ("type", .str "a"),
      ("values", .num (.int 1))])]
    let q' : Json := .obj [("ids", .obj [("type", .str "a"), ("types", .arr [.str "b"]),
      ("values", .num (.int 1))])]
    q.Distinct ∧ q.Reordered q' ∧ ofJson q = .ok (.ids ["a"] ["1"]) ∧
      ofJson q' = .ok (.ids ["b"] ["1"]) ∧ ¬ Alike False (.ids ["a"] ["1"]) (.ids ["b"] ["1"]) := by
  intro q q'
  refine ⟨?_, ?_, by rfl, by rfl, fun h => absurd h.types_eq (by decide)⟩
  · refine Json.distinct_singleton_iff.mpr (.obj (by decide) ?_)
    simp only [List.forall_mem_cons]
    exact ⟨.arr (by simpa using .str _), .str _, .num _, by simp⟩
  · refine Json.reordered_singleton_iff.mpr ⟨_, rfl, ?_⟩
    exact MembersReordered.obj ⟨_, .refl _, .swap _ _ _⟩

end Predicate

end DocSearch
