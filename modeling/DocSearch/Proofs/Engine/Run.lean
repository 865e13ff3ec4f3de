import DocSearch.Engine.Backend
import DocSearch.Proofs.Steps

/-!
# What a computation in a world keeps

A computation may fail at any of its steps, and the world survives.  So what holds of
the world afterwards is shown of every step, whether it succeeds or fails.  A
computation keeps a property of worlds if it takes every world that has it to a world
that has it, and reads the same source afterwards.

## Main definitions

* `Run.KeepsAt`, `Run.Keeps` — a property is kept, from one world and from all.

## Main results

* `within_bind_eq_ok`, `exists_of_mem_mapM` — what succeeds has succeeded in all its parts.
* `KeepsAt.bind`, `Keeps.mapM`, `Keeps.withScope` — sequences, lists and scopes keep what
  their parts keep.
-/

namespace DocSearch

namespace Run

variable {σ ε ε' α β : Type}

/-! ### Steps of a computation -/

@[simp] theorem within_of (f : World σ → Except ε α × World σ) (w : World σ) :
    (Run.of f).within w = f w := rfl

@[simp] theorem within_pure (a : α) (w : World σ) :
    (pure a : Run σ ε α).within w = (.ok a, w) := rfl

@[simp] theorem within_lift (x : Except ε α) (w : World σ) : (Run.lift x).within w = (x, w) := rfl

@[simp] theorem within_read (f : World σ → α) (w : World σ) :
    (Run.read f : Run σ ε α).within w = (.ok (f w), w) := rfl

theorem within_mapError (f : ε → ε') (r : Run σ ε α) (w : World σ) :
    (r.mapError f).within w = ((r.within w).1.mapError f, (r.within w).2) := rfl

theorem within_capture (r : Run σ ε α) (w : World σ) :
    (r.capture : Run σ ε' _).within w = (.ok (r.within w).1, (r.within w).2) := rfl

theorem within_withScope (scope : Source) (r : Run σ ε α) (w : World σ) :
    (withScope scope r).within w =
      ((r.within { w with scope }).1,
        { (r.within { w with scope }).2 with scope := w.scope }) := rfl

theorem within_bind (x : Run σ ε α) (f : α → Run σ ε β) (w : World σ) :
    (x >>= f).within w = match x.within w with
      | (.ok a, w) => (f a).within w
      | (.error e, w) => (.error e, w) := by
  unfold within ExceptT.run StateT.run
  simp only [bind, ExceptT.bind, ExceptT.mk, StateT.bind, ExceptT.bindCont]
  cases x w with
  | mk result after => cases result <;> rfl

/-! ### Computations that succeed -/

/-- A sequence succeeds if both of its parts do. -/
theorem within_bind_eq_ok {x : Run σ ε α} {f : α → Run σ ε β} {w after : World σ} {b : β} :
    (x >>= f).within w = (.ok b, after) ↔
      ∃ a between, x.within w = (.ok a, between) ∧ (f a).within between = (.ok b, after) := by
  rw [within_bind]
  cases x.within w with
  | mk result between =>
    cases result with
    | error e => simp
    | ok a =>
      constructor
      · intro h
        exact ⟨a, between, rfl, h⟩
      · rintro ⟨_, _, hx, h⟩
        cases hx
        exact h

/-- Each result of a list comes from one of its parts. -/
theorem exists_of_mem_mapM {f : α → Run σ ε β} {as : List α} {bs : List β} {w after : World σ}
    (h : (as.mapM f).within w = (.ok bs, after)) {b : β} (hb : b ∈ bs) :
    ∃ a ∈ as, ∃ before behind, (f a).within before = (.ok b, behind) := by
  induction as generalizing bs w with
  | nil =>
    cases h
    cases hb
  | cons a as ih =>
    rw [List.mapM_cons, within_bind_eq_ok] at h
    obtain ⟨first, between, hfirst, h⟩ := h
    rw [within_bind_eq_ok] at h
    obtain ⟨rest, _, hrest, h⟩ := h
    cases h
    rcases List.mem_cons.mp hb with rfl | hb
    · exact ⟨a, List.mem_cons_self, w, between, hfirst⟩
    · obtain ⟨a', ha', hresult⟩ := ih hrest hb
      exact ⟨a', List.mem_cons_of_mem _ ha', hresult⟩

/-- What succeeds in a scope succeeds in the world that reads from it. -/
theorem exists_of_withScope {scope : Source} {r : Run σ ε α} {w after : World σ} {a : α}
    (h : (DocSearch.withScope scope r).within w = (.ok a, after)) :
    ∃ behind, r.within { w with scope } = (.ok a, behind) := by
  rw [within_withScope] at h
  cases hr : r.within { w with scope } with
  | mk result behind =>
    rw [hr] at h
    cases h
    exact ⟨behind, rfl⟩

/-! ### What is kept -/

/-- From one world, a property is kept and the source that is read is the same. -/
def KeepsAt (I : World σ → Prop) (r : Run σ ε α) (w : World σ) : Prop :=
  (r.within w).2.scope = w.scope ∧ (I w → I (r.within w).2)

/-- A property is kept and the source that is read is the same. -/
def Keeps (I : World σ → Prop) (r : Run σ ε α) : Prop := ∀ w, KeepsAt I r w

variable {I : World σ → Prop} {w : World σ}

theorem KeepsAt.of_world_eq {r : Run σ ε α} (h : (r.within w).2 = w) : KeepsAt I r w := by
  rw [KeepsAt, h]
  exact ⟨rfl, id⟩

theorem Keeps.pure (a : α) : Keeps I (Pure.pure a : Run σ ε α) := fun _ => .of_world_eq rfl

theorem Keeps.lift (x : Except ε α) : Keeps I (Run.lift x : Run σ ε α) := fun _ => .of_world_eq rfl

/-- What comes second starts from a world with the same source. -/
theorem KeepsAt.bind {x : Run σ ε α} {f : α → Run σ ε β} (hx : KeepsAt I x w)
    (hf : ∀ a after, x.within w = (.ok a, after) → after.scope = w.scope → KeepsAt I (f a) after) :
    KeepsAt I (x >>= f) w := by
  rw [KeepsAt, within_bind]
  obtain ⟨hscope, hkeep⟩ := hx
  cases h : x.within w with
  | mk result after =>
    rw [h] at hscope hkeep
    cases result with
    | error e => exact ⟨hscope, hkeep⟩
    | ok a =>
      obtain ⟨hscope', hkeep'⟩ := hf a after h hscope
      exact ⟨hscope'.trans hscope, hkeep' ∘ hkeep⟩

theorem Keeps.bind {x : Run σ ε α} {f : α → Run σ ε β} (hx : Keeps I x) (hf : ∀ a, Keeps I (f a)) :
    Keeps I (x >>= f) :=
  fun w => (hx w).bind fun a after _ _ => hf a after

/-- What is read from the world is known to what comes second. -/
theorem KeepsAt.read_bind {g : World σ → α} {f : α → Run σ ε β} (hf : KeepsAt I (f (g w)) w) :
    KeepsAt I (Run.read g >>= f) w := by
  rw [KeepsAt, within_bind, within_read]
  exact hf

theorem KeepsAt.mapError {f : ε → ε'} {r : Run σ ε α} (hr : KeepsAt I r w) :
    KeepsAt I (r.mapError f) w := hr

theorem Keeps.capture {r : Run σ ε α} (hr : Keeps I r) : Keeps I (r.capture : Run σ ε' _) := hr

theorem Keeps.mapM {f : α → Run σ ε β} {as : List α} (hf : ∀ a, Keeps I (f a)) :
    Keeps I (as.mapM f) := by
  induction as with
  | nil => exact .pure []
  | cons a as ih =>
    rw [List.mapM_cons]
    exact (hf a).bind fun b => ih.bind fun bs => .pure (b :: bs)

/-- A scope is left with the source with which it was entered. -/
theorem KeepsAt.withScope {r : Run σ ε α} {scope : Source}
    (henter : I w → I { w with scope }) (hr : Keeps I r)
    (hleave : ∀ after : World σ, I w → I after → I { after with scope := w.scope }) :
    KeepsAt I (DocSearch.withScope scope r) w := by
  rw [KeepsAt, within_withScope]
  refine ⟨rfl, fun hw => ?_⟩
  exact hleave _ hw ((hr { w with scope }).2 (henter hw))

end Run

/-! ### Steps that issue statements -/

section Issue

variable {σ : Type} (b : Backend σ)

/-- What an answer fails with. -/
def failureOf : Except StoreError (List Row) → Option StoreError
  | .ok _ => none
  | .error e => some e

theorem within_issue (s : Statement) (w : World σ) :
    (issue b s).within w = ((b.run s w.state).1, { w with
      state := (b.run s w.state).2
      log := ⟨s, failureOf (b.run s w.state).1⟩ :: w.log }) := rfl

/-- A statement changes the state of the database and the log, and nothing else. -/
theorem exists_issue (s : Statement) (w : World σ) : ∃ answer state,
    (issue b s).within w =
      (answer, { w with state, log := ⟨s, failureOf answer⟩ :: w.log }) := by
  exact ⟨(b.run s w.state).1, (b.run s w.state).2, within_issue b s w⟩

/-- The world in which a name is registered. -/
def World.registering (name : String) (w : World σ) : World σ :=
  { w with arena := (w.arena.register name).2 }

/-- **What materializing does.**  Nothing, if the name is registered; otherwise the
name is registered, a table of this name is dropped, and unless that fails it is
created. -/
theorem materialize_cases (name : String) (selection : Selection) (w : World σ) :
    (w.arena.registered.contains name = true ∧
      ((materialize b name selection).within w).2 = w) ∨
    (w.arena.registered.contains name = false ∧ ∃ state e,
      ((materialize b name selection).within w).2 =
        { w.registering name with state, log := ⟨.drop name, some e⟩ :: w.log }) ∨
    (w.arena.registered.contains name = false ∧ ∃ state failure,
      ((materialize b name selection).within w).2 =
        { w.registering name with
          state, log := ⟨.create name selection, failure⟩ :: ⟨.drop name, none⟩ :: w.log }) := by
  rw [materialize, Run.within_bind, Run.within_of]
  cases hname : w.arena.registered.contains name with
  | true =>
    refine .inl ⟨rfl, ?_⟩
    simp [Arena.register, hname]
  | false =>
    -- the name is registered before either statement is issued
    have hfresh : (w.arena.register name).1 = true := by simp [Arena.register, hname]
    refine .inr ?_
    simp only [hfresh, if_true]
    show (_ ∧ ∃ state e, (Run.within _ (w.registering name)).2 = _) ∨
      (_ ∧ ∃ state failure, (Run.within _ (w.registering name)).2 = _)
    obtain ⟨answer, state, hdrop⟩ := exists_issue b (.drop name) (w.registering name)
    rw [Run.within_bind, hdrop]
    cases answer with
    | error e => exact .inl ⟨trivial, state, e, rfl⟩
    | ok rows =>
      refine .inr ⟨trivial, ?_⟩
      obtain ⟨answer, state, hcreate⟩ := exists_issue b (.create name selection)
        { w.registering name with state, log := ⟨.drop name, none⟩ :: w.log }
      refine ⟨state, failureOf answer, ?_⟩
      show (Run.within _
        { w.registering name with state := _, log := ⟨.drop name, none⟩ :: w.log }).2 = _
      rw [Run.within_bind, hcreate]
      cases answer <;> rfl

/-- A name that is registered is not looked at again. -/
theorem within_materialize_of_registered {name : String} (selection : Selection) {w : World σ}
    (hname : w.arena.registered.contains name = true) :
    (materialize b name selection).within w = (.ok (), w) := by
  have hregister : w.arena.register name = (false, w.arena) := by simp [Arena.register, hname]
  rw [materialize, Run.within_bind, Run.within_of]
  simp only [hregister]
  rfl

/-- A new name is registered, a table of this name is dropped, and then it is created. -/
theorem within_materialize_of_fresh {name : String} (selection : Selection) {w : World σ}
    (hname : w.arena.registered.contains name = false) :
    (materialize b name selection).within w =
      match (issue b (.drop name)).within (w.registering name) with
      | (.ok _, dropped) => (((issue b (.create name selection)).within dropped).1.map fun _ => (),
          ((issue b (.create name selection)).within dropped).2)
      | (.error e, after) => (.error e, after) := by
  have hfresh : (w.arena.register name).1 = true := by simp [Arena.register, hname]
  rw [materialize, Run.within_bind, Run.within_of]
  simp only [hfresh, if_true]
  show Run.within _ (w.registering name) = _
  rw [Run.within_bind]
  cases (issue b (.drop name)).within (w.registering name) with
  | mk answer dropped =>
    cases answer with
    | error e => rfl
    | ok rows =>
      simp only
      rw [Run.within_bind]
      cases (issue b (.create name selection)).within dropped with
      | mk answer created => cases answer <;> rfl

end Issue

end DocSearch
