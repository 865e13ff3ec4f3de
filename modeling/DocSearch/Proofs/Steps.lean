/-!
# Steps that succeed

What a sequence of steps gives is known from what each step gives.  These facts open
a reader or a walk that has succeeded, one step at a time.

## Main results

* `bind_eq_ok`, `map_eq_ok` — a sequence succeeds if each step does.
* `mapM_eq_some`, `mapM_eq_ok`, `mapM_total`, `mapM_ok_mono` — so does the same step for each
  of a list.
* `foldlM_keeps`, `foldlM_keeps_of_mem` — what every step of a fold keeps, the fold keeps.
-/

namespace DocSearch.Steps

variable {ε α β : Type}

@[simp] theorem bind_eq_ok {x : Except ε α} {f : α → Except ε β} {b : β} :
    (x >>= f) = .ok b ↔ ∃ a, x = .ok a ∧ f a = .ok b := by
  cases x <;> simp [bind, Except.bind]

@[simp] theorem map_eq_ok {x : Except ε α} {f : α → β} {b : β} :
    x.map f = .ok b ↔ ∃ a, x = .ok a ∧ f a = b := by
  cases x <;> simp [Except.map]

@[simp] theorem mapError_ok {ε' : Type} (f : ε → ε') (a : α) :
    (Except.ok a).mapError f = .ok a := rfl

@[simp] theorem mapError_error {ε' : Type} (f : ε → ε') (e : ε) :
    (Except.error e : Except ε α).mapError f = .error (f e) := rfl

theorem mapError_eq_ok {ε' : Type} {x : Except ε α} {f : ε → ε'} {a : α} :
    x.mapError f = .ok a ↔ x = .ok a := by
  cases x <;> simp

@[simp] theorem pure_eq_ok {a b : α} : (pure a : Except ε α) = .ok b ↔ a = b := by
  simp [pure, Except.pure]

theorem mapM_eq_some {f : α → Option β} {as : List α} {bs : List β} :
    as.mapM f = some bs ↔ as.map f = bs.map some := by
  induction as generalizing bs with
  | nil => cases bs <;> simp
  | cons a as ih =>
    rw [List.mapM_cons, List.map_cons]
    cases hb : f a with
    | none => cases bs <;> simp
    | some b =>
      cases has : as.mapM f with
      | none =>
        have hnone : ∀ bs : List β, as.map f ≠ bs.map some := fun bs h => nomatch has.symm.trans (ih.mpr h)
        cases bs <;> simp [hnone]
      | some bs' =>
        rw [ih.mp has]
        cases bs <;> simp [List.map_inj_right]

theorem mapM_eq_ok {f : α → Except ε β} {as : List α} {bs : List β} :
    as.mapM f = .ok bs ↔ as.map f = bs.map .ok := by
  induction as generalizing bs with
  | nil => cases bs <;> simp [pure, Except.pure]
  | cons a as ih =>
    rw [List.mapM_cons, List.map_cons]
    cases hb : f a with
    | error e => cases bs <;> simp [bind, Except.bind]
    | ok b =>
      cases has : as.mapM f with
      | error e =>
        have hnone : ∀ bs : List β, as.map f ≠ bs.map .ok := fun bs h => nomatch has.symm.trans (ih.mpr h)
        cases bs <;> simp [hnone, bind, Except.bind]
      | ok bs' =>
        rw [ih.mp has]
        cases bs <;> simp [bind, Except.bind, pure, Except.pure, List.map_inj_right]

theorem mapM_total {f : α → Except ε β} {as : List α} (h : ∀ a ∈ as, ∃ b, f a = .ok b) :
    ∃ bs, as.mapM f = .ok bs := by
  induction as with
  | nil => exact ⟨[], rfl⟩
  | cons a as ih =>
    rw [List.forall_mem_cons] at h
    obtain ⟨⟨b, hb⟩, hrest⟩ := h
    obtain ⟨bs, hbs⟩ := ih hrest
    exact ⟨b :: bs, by rw [List.mapM_cons, hb, hbs]; rfl⟩

/-- The same step for each of a list gives the same as another one that does so wherever it
succeeds. -/
theorem mapM_ok_mono {f g : α → Except ε β} {as : List α} {bs : List β}
    (h : ∀ a ∈ as, ∀ b, f a = .ok b → g a = .ok b) (hbs : as.mapM f = .ok bs) :
    as.mapM g = .ok bs := by
  rw [mapM_eq_ok] at hbs ⊢
  rw [← hbs]
  refine List.map_congr_left fun a ha => ?_
  have hmem : f a ∈ bs.map .ok := hbs ▸ List.mem_map_of_mem ha
  obtain ⟨b, -, hb⟩ := List.mem_map.mp hmem
  rw [← hb]
  exact h a ha b hb.symm

theorem foldlM_keeps_of_mem {I : β → Prop} {step : β → α → Except ε β} {as : List α}
    (hstep : ∀ {b b'}, ∀ a ∈ as, step b a = .ok b' → I b → I b') {b b' : β}
    (h : as.foldlM step b = .ok b') (hb : I b) : I b' := by
  induction as generalizing b with
  | nil =>
    rw [List.foldlM_nil, pure_eq_ok] at h
    rw [← h]
    exact hb
  | cons a as ih =>
    rw [List.foldlM_cons, bind_eq_ok] at h
    obtain ⟨c, hc, h⟩ := h
    refine ih (fun a ha => hstep a (List.mem_cons_of_mem _ ha)) h ?_
    exact hstep a List.mem_cons_self hc hb

theorem foldlM_keeps {I : β → Prop} {step : β → α → Except ε β}
    (hstep : ∀ {b a b'}, step b a = .ok b' → I b → I b') {as : List α} {b b' : β}
    (h : as.foldlM step b = .ok b') (hb : I b) : I b' :=
  foldlM_keeps_of_mem (fun _ _ => hstep) h hb

end DocSearch.Steps
