import DocSearch.Proofs.Json.Symmetry
import DocSearch.Proofs.Query.Clauses

/-!
# Members that commute

What members write into a slot is the same in any order, if any two of them leave the same in
it.  Members of different names write into slots of their own, with few exceptions: two names of
a value, or of types, are names for one slot.

What a member writes is said by a value that is flat, but for the clauses of a boolean query; so
the members within such a value have no order that could matter.

## Main definitions

* `Writing.Local`, `Writing.Commute` — what a slot depends on, and members that leave the same
  in it.
* `Writing.IsFlat` — a table whose values are flat.

## Main results

* `Writing.Run.perm`, `Writing.Run.alike` — members that write may change places, and so may
  what is in them.
* `Writing.Run.reordered` — **members with flat values may stand in any order**.
-/

namespace DocSearch

open Members Query

/-! ### Members that change places -/

namespace Query.Writing

variable {σ τ : Type} {W : Writing σ} {slot : σ → τ} {ms ns : List (String × Json)}
  {s s' t : σ}

/-- What is written into a slot depends on what the slot holds only. -/
def Local (W : Writing σ) (slot : σ → τ) : Prop :=
  ∀ key v w, W key v w → ∀ s s', slot s = slot s' → slot (w s) = slot (w s')

/-- Two members leave the same in a slot, whichever of them writes first. -/
def Commute (W : Writing σ) (slot : σ → τ) (key key' : String) : Prop :=
  ∀ v v' w w', W key v w → W key' v' w' → ∀ s, slot (w (w' s)) = slot (w' (w s))

theorem Run.congr (hlocal : Local W slot) (hs : slot s = slot s') (h : W.Run ms s t) :
    ∃ t', W.Run ms s' t' ∧ slot t' = slot t := by
  induction ms generalizing s s' with
  | nil =>
    rw [← run_nil.mp h]
    exact ⟨s', run_nil.mpr rfl, hs.symm⟩
  | cons m ms ih =>
    obtain ⟨w, hw, h⟩ := run_cons.mp h
    obtain ⟨t', ht', hslot⟩ := ih (hlocal _ _ _ hw _ _ hs) h
    exact ⟨t', run_cons.mpr ⟨w, hw, ht'⟩, hslot⟩

/-- **Members that commute may change places.** -/
theorem Run.perm (hlocal : Local W slot) (hperm : ms.Perm ns) (hnames : (names ms).Nodup)
    (hcomm : ∀ key ∈ names ms, ∀ key' ∈ names ms, key ≠ key' → Commute W slot key key')
    (hs : slot s = slot s') (h : W.Run ms s t) : ∃ t', W.Run ns s' t' ∧ slot t' = slot t := by
  induction hperm generalizing s s' t with
  | nil => exact h.congr hlocal hs
  | cons m hperm ih =>
    obtain ⟨w, hw, h⟩ := run_cons.mp h
    have hcomm' := fun key hkey key' hkey' =>
      hcomm key (List.mem_cons_of_mem _ hkey) key' (List.mem_cons_of_mem _ hkey')
    obtain ⟨t', ht', hslot⟩ :=
      ih (List.nodup_cons.mp hnames).2 hcomm' (hlocal _ _ _ hw _ _ hs) h
    exact ⟨t', run_cons.mpr ⟨w, hw, ht'⟩, hslot⟩
  | swap m n ms =>
    obtain ⟨w, hw, h⟩ := run_cons.mp h
    obtain ⟨w', hw', h⟩ := run_cons.mp h
    have hne : m.1 ≠ n.1 := by
      rintro heq
      have hnot := (List.nodup_cons.mp hnames).1
      exact hnot (by simp [heq])
    -- only the slot is compared, and writes see no more of a state than its slot
    have hswap : slot (w' (w s)) = slot (w (w' s')) :=
      calc slot (w' (w s)) = slot (w (w' s)) :=
            hcomm m.1 (by simp [names]) n.1 (by simp [names]) hne _ _ _ _ hw' hw s
        _ = slot (w (w' s')) := hlocal _ _ _ hw _ _ (hlocal _ _ _ hw' _ _ hs)
    obtain ⟨t', ht', hslot⟩ := h.congr hlocal hswap
    exact ⟨t', run_cons.mpr ⟨w', hw', run_cons.mpr ⟨w, hw, ht'⟩⟩, hslot⟩
  | trans h₁ _ ih₁ ih₂ =>
    have hmem := fun key => (h₁.map Prod.fst).mem_iff (a := key)
    obtain ⟨t₁, ht₁, hslot₁⟩ := ih₁ hnames hcomm hs h
    obtain ⟨t₂, ht₂, hslot₂⟩ := ih₂ ((h₁.map Prod.fst).nodup_iff.mp hnames)
      (fun key hkey key' hkey' => hcomm key ((hmem key).mpr hkey) key' ((hmem key').mpr hkey'))
      rfl ht₁
    exact ⟨t₂, ht₂, hslot₂.trans hslot₁⟩

/-- **Members may be replaced by others that write alike.** -/
theorem Run.alike {R : σ → σ → Prop}
    (hW : ∀ m ∈ ms, ∀ v' w, W m.1 m.2 w → m.2.Reordered v' →
      ∃ w', W m.1 v' w' ∧ ∀ s s', R s s' → R (w s) (w' s'))
    (halike : MembersAlike ms ns) (hs : R s s') (h : W.Run ms s t) :
    ∃ t', W.Run ns s' t' ∧ R t t' := by
  induction halike generalizing s s' with
  | nil =>
    rw [← run_nil.mp h]
    exact ⟨s', run_nil.mpr rfl, hs⟩
  | @cons m n ms ns hmn _ ih =>
    obtain ⟨w, hw, h⟩ := run_cons.mp h
    rw [List.forall_mem_cons] at hW
    obtain ⟨w', hw', hR⟩ := hW.1 n.2 w hw hmn.2
    obtain ⟨t', ht', hR'⟩ := ih hW.2 (hR _ _ hs) h
    exact ⟨t', run_cons.mpr ⟨w', hmn.1 ▸ hw', ht'⟩, hR'⟩

/-- What members write is in flat values, or not in their values at all. -/
def IsFlat (W : Writing σ) : Prop := ∀ key v w, W key v w → v.Flat ∨ ∀ v', W key v' w

/-- **Members with flat values may stand in any order.** -/
theorem Run.reordered (hflat : IsFlat W) (hlocal : Local W slot) (hnames : (names ms).Nodup)
    (hcomm : ∀ key ∈ names ms, ∀ key' ∈ names ms, key ≠ key' → Commute W slot key key')
    (hreordered : MembersReordered ms ns) (h : W.Run ms s t) :
    ∃ t', W.Run ns s t' ∧ slot t' = slot t := by
  obtain ⟨between, halike, hperm⟩ := hreordered
  have hsame : names ms = names between := (Members.forall₂_iff.mp halike).1
  -- a flat value has no other order, so that its member writes the same
  have hwrites : ∀ m ∈ ms, ∀ v' w, W m.1 m.2 w → m.2.Reordered v' →
      ∃ w', W m.1 v' w' ∧ ∀ s s', s = s' → w s = w' s' := by
    intro m _ v' w hw hv'
    refine ⟨w, ?_, fun s s' hs => by rw [hs]⟩
    rcases hflat _ _ _ hw with hflat | hany
    · rw [hflat.eq_of_reordered hv']
      exact hw
    · exact hany v'
  obtain ⟨_, hrun, rfl⟩ := h.alike hwrites halike rfl
  exact hrun.perm hlocal hperm (hsame ▸ hnames) (hsame ▸ hcomm) rfl

/-- The same, where all of what is read is looked at. -/
theorem Run.reordered_same (hflat : IsFlat W) (hnames : (names ms).Nodup)
    (hcomm : ∀ key ∈ names ms, ∀ key' ∈ names ms, key ≠ key' → Commute W id key key')
    (hreordered : MembersReordered ms ns) (h : W.Run ms s t) : W.Run ns s t := by
  have hlocal : Local W id := fun _ _ w _ s s' hs => congrArg w hs
  obtain ⟨t', ht', hslot⟩ := h.reordered hflat hlocal hnames hcomm hreordered
  obtain rfl : t' = t := hslot
  exact ht'

end Query.Writing

/-! ### Flat values -/

namespace Json

variable {v v' : Json}

theorem IsSpelt.flat {text : String} (h : v.IsSpelt text) : v.Flat := by
  obtain ⟨s, rfl, -⟩ := h
  exact .scalar s

theorem IsDouble.flat {x : Float} (h : v.IsDouble x) : v.Flat := by
  rcases h with ⟨n, rfl, -⟩ | rfl
  · exact .scalar (.number (.int n))
  · exact .scalar (.number (.real x))

theorem flat_of_string? (h : v.string? ≠ none) : v.Flat := by
  cases v with
  | str s => exact .scalar (.text s)
  | _ => exact absurd rfl h

/-- Scalars in a list, or a scalar in its place. -/
theorem flat_of_listed {texts : List String} (h : List.Forall₂ IsSpelt v.listed texts) :
    v.Flat := by
  have hscalars : ∀ {items : List Json} {texts : List String},
      List.Forall₂ IsSpelt items texts → ∃ ss : List Scalar, items = ss.map Scalar.toJson := by
    intro items texts hitems
    induction hitems with
    | nil => exact ⟨[], rfl⟩
    | cons hs _ ih =>
      obtain ⟨s, rfl, -⟩ := hs
      obtain ⟨ss, rfl⟩ := ih
      exact ⟨s :: ss, rfl⟩
  obtain ⟨ss, hss⟩ := hscalars h
  cases v with
  | arr items =>
    obtain rfl : items = _ := hss
    exact .list ss
  | _ =>
    cases h with
    | cons hspelt => exact hspelt.flat

theorem Reordered.listed (h : v.Reordered v') : List.Forall₂ Reordered v.listed v'.listed := by
  cases v with
  | arr items =>
    obtain ⟨items', rfl, hitems⟩ := reordered_arr_iff.mp h
    exact hitems
  | obj ms =>
    obtain ⟨ms', rfl, -⟩ := reordered_obj_iff.mp h
    exact .cons h .nil
  | _ =>
    cases h
    exact .cons (.same _) .nil

theorem Reordered.parameters (h : v.Reordered v') (name : String) :
    MembersReordered (v.parameters name) (v'.parameters name) := by
  cases v with
  | obj params =>
    obtain ⟨params', rfl, hparams⟩ := reordered_obj_iff.mp h
    exact hparams
  | arr items =>
    obtain ⟨items', rfl, -⟩ := reordered_arr_iff.mp h
    exact ⟨[(name, .arr items')], .cons ⟨rfl, h⟩ .nil, .refl _⟩
  | _ =>
    cases h
    exact ⟨_, .cons ⟨rfl, .same _⟩ .nil, .refl _⟩

end Json

namespace Query

theorem flat_of_threshold {v : Json} {raw : String} (h : threshold v = .ok raw) : v.Flat := by
  cases v with
  | str s => exact .scalar (.text s)
  | num n => exact .scalar (.number n)
  | _ => cases h

theorem flat_of_fieldItems {items : List Json} {fs : List BoostedField}
    (h : List.Forall₂ (fun item f => fieldItem item = .ok f) items fs) : (Json.arr items).Flat := by
  have hstrings : ∃ names : List Scalar, items = names.map Scalar.toJson := by
    induction h with
    | nil => exact ⟨[], rfl⟩
    | @cons item f items fs hf _ ih =>
      obtain ⟨names, rfl⟩ := ih
      cases item with
      | str s => exact ⟨.text s :: names, rfl⟩
      | _ => cases hf
  obtain ⟨names, rfl⟩ := hstrings
  exact .list names

/-! ### Tables whose members commute -/

theorem TextWrites.isFlat {fixed : Bool} : Writing.IsFlat (TextWrites fixed) := by
  intro key v w hw
  cases hw with
  | query h => exact .inl h.flat
  | operator h =>
    exact .inl (Json.flat_of_string? fun hs => by simpa [Query.operator, hs] using h "")
  | zeroTerms h =>
    exact .inl (Json.flat_of_string? fun hs => by simpa [Query.zeroTerms, hs] using h "")
  | boost h => exact .inl h.flat
  | analyzer => exact .inr .analyzer
  | maxExpansions => exact .inr .maxExpansions
  | mode _ h => exact .inl (Json.flat_of_string? fun hs => by simpa [Query.mode, hs] using h "")

theorem TextWrites.commute {fixed : Bool} {key key' : String} (hne : key ≠ key') :
    Writing.Commute (TextWrites fixed) id key key' := by
  intro v v' w w' hw hw' s
  cases hw <;> cases hw' <;> first | rfl | exact absurd rfl hne

theorem MultiFieldWrites.isFlat : Writing.IsFlat MultiFieldWrites := by
  intro key v w hw
  cases hw with
  | query h => exact .inl h.flat
  | fields h => exact .inl (flat_of_fieldItems h)
  | mode h => exact .inl (Json.flat_of_string? fun hs => by simp [multiFieldMode, hs] at h)
  | operator h => exact .inl (Json.flat_of_string? fun hs => by simp [Query.operator, hs] at h)
  | zeroTerms h => exact .inl (Json.flat_of_string? fun hs => by simp [Query.zeroTerms, hs] at h)
  | boost h => exact .inl h.flat
  | analyzer => exact .inr .analyzer
  | tieBreaker => exact .inr .tieBreaker

theorem MultiFieldWrites.commute {key key' : String} (hne : key ≠ key') :
    Writing.Commute MultiFieldWrites id key key' := by
  intro v v' w w' hw hw' s
  cases hw <;> cases hw' <;> first | rfl | exact absurd rfl hne

section Values

variable {α : Type} {isValue : String → Bool} {R : Json → α → Prop}

theorem ValueWrites.isFlat (hR : ∀ v a, R v a → v.Flat) :
    Writing.IsFlat (ValueWrites isValue R) := by
  intro key v w hw
  cases hw with
  | value _ h => exact .inl (hR _ _ h)
  | boost _ h => exact .inl h.flat

/-- Members commute, unless they are two names for the value. -/
theorem ValueWrites.commute {key key' : String} (hne : key ≠ key')
    (hvalue : isValue key = true → isValue key' = false) :
    Writing.Commute (ValueWrites isValue R) id key key' := by
  intro v v' w w' hw hw' s
  cases hw with
  | value hkey =>
    cases hw' with
    | value hkey' =>
      rw [hvalue hkey] at hkey'
      cases hkey'
    | boost => rfl
  | boost =>
    cases hw' with
    | value => rfl
    | boost => exact absurd rfl hne

theorem ValueWrites.commute_of_name {name key key' : String} (hne : key ≠ key') :
    Writing.Commute (ValueWrites (· = name) R) id key key' := by
  refine commute hne fun hkey => ?_
  rw [← of_decide_eq_true hkey]
  exact decide_eq_false hne.symm

/-- Whether there is a value does not depend on who writes it. -/
theorem ValueWrites.local_isSome : Writing.Local (ValueWrites isValue R) (·.value.isSome) := by
  intro key v w hw s s' hs
  cases hw with
  | value => rfl
  | boost => exact hs

theorem ValueWrites.commute_isSome (key key' : String) :
    Writing.Commute (ValueWrites isValue R) (·.value.isSome) key key' := by
  intro v v' w w' hw hw' s
  cases hw <;> cases hw' <;> rfl

end Values

theorem IdsWrites.isFlat : Writing.IsFlat IdsWrites := by
  intro key v w hw
  cases hw with
  | types _ h => exact .inl (Json.flat_of_listed h)
  | values h => exact .inl (Json.flat_of_listed h)
  | boost h => exact .inl h.flat

/-- Members commute, unless they are two names for the types. -/
theorem IdsWrites.commute {key key' : String} (hne : key ≠ key')
    (htypes : key = "type" ∨ key = "types" → ¬ (key' = "type" ∨ key' = "types")) :
    Writing.Commute IdsWrites id key key' := by
  intro v v' w w' hw hw' s
  cases hw with
  | types hkey =>
    cases hw' with
    | types hkey' => exact absurd hkey' (htypes hkey)
    | _ => rfl
  | _ => cases hw' <;> first | rfl | exact absurd rfl hne

/-- The identifiers do not depend on the types. -/
theorem IdsWrites.local_snd : Writing.Local IdsWrites Prod.snd := by
  intro key v w hw s s' hs
  cases hw with
  | types => exact hs
  | values => rfl
  | boost => exact hs

theorem IdsWrites.commute_snd {key key' : String} (hne : key ≠ key') :
    Writing.Commute IdsWrites Prod.snd key key' := by
  intro v v' w w' hw hw' s
  cases hw <;> cases hw' <;> first | rfl | exact absurd rfl hne

theorem ClauseWrites.commute {key key' : String} (hne : key ≠ key') :
    Writing.Commute ClauseWrites id key key' := by
  intro v v' w w' hw hw' s
  cases hw with
  | group g =>
    cases hw' with
    | group g' => cases g <;> cases g' <;> first | rfl | exact absurd rfl hne
    | _ => cases g <;> rfl
  | threshold =>
    cases hw' with
    | group g' => cases g' <;> rfl
    | threshold => exact absurd rfl hne
    | boost => rfl
  | boost => rfl

/-! ### Members besides the weight -/

theorem besidesBoost_reordered {ms ms' : List (String × Json)} (h : MembersReordered ms ms') :
    MembersReordered (besidesBoost ms) (besidesBoost ms') := by
  obtain ⟨between, halike, hperm⟩ := h
  refine ⟨besidesBoost between, ?_, hperm.filter _⟩
  exact List.rel_filter (fun m n hmn => by simp [hmn.1]) halike

theorem BoostIsNumber.reordered {ms ms' : List (String × Json)} (hms : BoostIsNumber ms)
    (h : MembersReordered ms ms') : BoostIsNumber ms' := by
  obtain ⟨between, halike, hperm⟩ := h
  have hbetween : ∀ n ∈ between, n.1 = "boost" → ∃ x, n.2.IsDouble x := by
    refine forall_of_forall₂_right ((forall₂_with_mem halike).imp fun m n hmn hkey => ?_)
    obtain ⟨x, hx⟩ := hms m hmn.1 (hmn.2.1.trans hkey)
    rw [hx.flat.eq_of_reordered hmn.2.2]
    exact ⟨x, hx⟩
  exact fun m hm => hbetween m (hperm.mem_iff.mpr hm)

/-- Members with flat values are reordered as they stand. -/
theorem perm_of_flat {ms ms' : List (String × Json)} (hflat : ∀ m ∈ ms, m.2.Flat)
    (h : MembersReordered ms ms') : ms.Perm ms' := by
  obtain ⟨between, halike, hperm⟩ := h
  have hsame : List.Forall₂ Eq ms between := by
    refine (forall₂_with_mem halike).imp fun m n hmn => ?_
    exact Prod.ext hmn.2.1 ((hflat m hmn.1).eq_of_reordered hmn.2.2).symm
  rw [List.forall₂_eq_eq_eq] at hsame
  rw [hsame]
  exact hperm

end Query

end DocSearch
