import DocSearch.Proofs.Steps
import DocSearch.Json.Basic
import Mathlib.Data.List.Forall2
import Mathlib.Data.List.Nodup

/-!
# Members that write

The body of a query is read member by member, and what a member does depends on its name and
its value only: it writes into some slots of what is read so far and leaves the others as they
are.  So a body has a table of what its members may write, and reading it is writing what the
table says, one member after the other.

## Main definitions

* `Json.parameters` — the members of an object, or a value in the place of one.
* `Writing`, `Writing.Run` — a table, and members that write one after the other.

## Main results

* `Writing.foldlM_eq_ok` — reading member by member is writing as a table says.
* `Writing.Run.exists_last`, `Writing.Run.of_lookup`, `Writing.Run.of_some` — **where a slot
  comes from**.
-/

namespace DocSearch

open Steps

namespace Json

/-- The parameters of an object; a value that stands alone is the parameter `name`. -/
def parameters (name : String) : Json → List (String × Json)
  | .obj params => params
  | v => [(name, v)]

theorem parameters_of_ne {name : String} {v : Json} (h : ∀ params, v = .obj params → False) :
    v.parameters name = [(name, v)] := by
  unfold parameters
  split
  · next params => exact (h params rfl).elim
  · rfl

end Json

/-! ### Members that write -/

namespace Query

/-- What a member of a given name and value may write into what is read so far. -/
abbrev Writing (σ : Type) := String → Json → (σ → σ) → Prop

namespace Writing

variable {σ τ ε : Type} {W : Writing σ} {ms ns : List (String × Json)} {s s' : σ}

/-- Members write one after the other, and `s` becomes `s'`. -/
def Run (W : Writing σ) (ms : List (String × Json)) (s s' : σ) : Prop :=
  ∃ ws, List.Forall₂ (fun m w => W m.1 m.2 w) ms ws ∧ ws.foldl (fun s w => w s) s = s'

@[simp] theorem run_nil : W.Run [] s s' ↔ s = s' := by
  simp [Run]

@[simp] theorem run_cons {m : String × Json} :
    W.Run (m :: ms) s s' ↔ ∃ w, W m.1 m.2 w ∧ W.Run ms (w s) s' := by
  constructor
  · rintro ⟨_, hwrites, rfl⟩
    obtain ⟨w, ws, hw, hws, rfl⟩ := List.forall₂_cons_left_iff.mp hwrites
    exact ⟨w, hw, ws, hws, rfl⟩
  · rintro ⟨w, hw, ws, hws, rfl⟩
    exact ⟨w :: ws, .cons hw hws, rfl⟩

theorem run_append : W.Run (ms ++ ns) s s' ↔ ∃ r, W.Run ms s r ∧ W.Run ns r s' := by
  induction ms generalizing s with
  | nil => simp
  | cons m ms ih =>
    rw [List.cons_append, run_cons]
    simp only [ih, run_cons]
    constructor
    · rintro ⟨w, hw, r, hms, hns⟩
      exact ⟨r, ⟨w, hw, hms⟩, hns⟩
    · rintro ⟨r, ⟨w, hw, hms⟩, hns⟩
      exact ⟨w, hw, r, hms, hns⟩

/-- **Reading member by member is writing as a table says**, if each step is. -/
theorem foldlM_eq_ok {step : σ → String × Json → Except ε σ}
    (hstep : ∀ s m s', step s m = .ok s' ↔ ∃ w, W m.1 m.2 w ∧ w s = s') :
    ms.foldlM step s = .ok s' ↔ W.Run ms s s' := by
  induction ms generalizing s with
  | nil => simp
  | cons m ms ih =>
    rw [List.foldlM_cons, bind_eq_ok, run_cons]
    simp only [ih, hstep]
    constructor
    · rintro ⟨_, ⟨w, hw, rfl⟩, hms⟩
      exact ⟨w, hw, hms⟩
    · rintro ⟨w, hw, hms⟩
      exact ⟨_, ⟨w, hw, rfl⟩, hms⟩

/-- Members that are read alike may stand for each other. -/
theorem Run.replace {before after : List (String × Json)} {m n : String × Json}
    (hmn : ∀ w, W m.1 m.2 w → W n.1 n.2 w) (h : W.Run (before ++ m :: after) s s') :
    W.Run (before ++ n :: after) s s' := by
  rw [run_append] at h ⊢
  obtain ⟨r, hbefore, h⟩ := h
  obtain ⟨w, hw, hafter⟩ := run_cons.mp h
  exact ⟨r, hbefore, run_cons.mpr ⟨w, hmn w hw, hafter⟩⟩

/-- A value that stands alone is one member that writes. -/
theorem run_alone {name : String} {v : Json} (hv : ∀ params, v = .obj params → False) :
    W.Run (v.parameters name) s s' ↔ ∃ w, W name v w ∧ w s = s' := by
  simp [Json.parameters_of_ne hv]

variable {slot : σ → τ} {Sets : String → Prop}

/-- **A slot is as it was, or as the last member has left it that sets it.** -/
theorem Run.exists_last
    (hother : ∀ key v w, W key v w → ¬ Sets key → ∀ s, slot (w s) = slot s)
    (h : W.Run ms s s') :
    (∀ m ∈ ms, ¬ Sets m.1) ∧ slot s' = slot s ∨
      ∃ before m after w r, ms = before ++ m :: after ∧ Sets m.1 ∧ W.Run before s r ∧
        W m.1 m.2 w ∧ slot s' = slot (w r) := by
  induction ms generalizing s with
  | nil => exact .inl ⟨by simp, by rw [run_nil.mp h]⟩
  | cons m ms ih =>
    obtain ⟨w, hw, h⟩ := run_cons.mp h
    rcases ih h with ⟨hms, hslot⟩ | ⟨before, n, after, w', r, rfl, hn, hrun, hw', hslot⟩
    · by_cases hm : Sets m.1
      · exact .inr ⟨[], m, ms, w, s, rfl, hm, run_nil.mpr rfl, hw, hslot⟩
      · exact .inl ⟨List.forall_mem_cons.mpr ⟨hm, hms⟩, hslot.trans (hother _ _ _ hw hm s)⟩
    · exact .inr ⟨m :: before, n, after, w', r, rfl, hn, run_cons.mpr ⟨w, hw, hrun⟩, hw', hslot⟩

theorem lookup_eq_none {name : String} : ms.lookup name = none ↔ ∀ m ∈ ms, m.1 ≠ name := by
  rw [List.lookup_eq_none_iff]
  exact forall₂_congr fun m _ => by rw [bne_iff_ne, ne_comm]

/-- **Where each name stands once, a slot comes from the member that sets it.** -/
theorem Run.of_lookup {name : String} (hnames : (Members.names ms).Nodup)
    (hother : ∀ key v w, W key v w → key ≠ name → ∀ s, slot (w s) = slot s)
    (h : W.Run ms s s') :
    ms.lookup name = none ∧ slot s' = slot s ∨
      ∃ v w r, ms.lookup name = some v ∧ W name v w ∧ slot r = slot s ∧ slot s' = slot (w r) := by
  rcases h.exists_last hother with
    ⟨hms, hslot⟩ | ⟨before, ⟨key, v⟩, after, w, r, rfl, rfl, hrun, hw, hslot⟩
  · exact .inl ⟨lookup_eq_none.mpr hms, hslot⟩
  · have hbefore : ∀ m ∈ before, m.1 ≠ key := by
      intro m hm hkey
      rw [Members.names, List.map_append, List.nodup_append] at hnames
      exact hnames.2.2 m.1 (List.mem_map_of_mem hm) key (by simp) hkey
    refine .inr ⟨v, w, r, ?_, hw, ?_, hslot⟩
    · rw [List.lookup_append, lookup_eq_none.mpr hbefore]
      simp
    · rcases hrun.exists_last hother with ⟨-, hr⟩ | ⟨_, m, _, _, _, rfl, hm, -⟩
      · exact hr
      · exact absurd hm (hbefore m (by simp))

/-- What a slot holds that was empty comes from the one member that fills it. -/
theorem Run.of_some {α : Type} {slot : σ → Option α} {R : Json → α → Prop} {name : String}
    (hnames : (Members.names ms).Nodup)
    (hother : ∀ key v w, W key v w → key ≠ name → ∀ s, slot (w s) = slot s)
    (hset : ∀ key v w, W key v w → key = name → ∃ a, R v a ∧ ∀ s, slot (w s) = some a)
    (h : W.Run ms s s') (hs : slot s = none) {a : α} (ha : slot s' = some a) :
    ∃ v, ms.lookup name = some v ∧ R v a := by
  rcases h.of_lookup hnames hother with ⟨-, hslot⟩ | ⟨v, w, r, hv, hw, -, hslot⟩
  · rw [hslot, hs] at ha
    cases ha
  · obtain ⟨a', hR, hfill⟩ := hset _ v w hw rfl
    rw [hslot, hfill] at ha
    cases ha
    exact ⟨v, hv, hR⟩

end Writing

end Query

end DocSearch
