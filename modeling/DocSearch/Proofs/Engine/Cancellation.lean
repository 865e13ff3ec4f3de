import DocSearch.Proofs.Aggregation.RoundTrip
import DocSearch.Proofs.Engine.Failures
import DocSearch.Proofs.Engine.Script
import Mathlib

/-!
# A cancelled search ceases

A search looks whether it has been cancelled before each aggregation, before each bucket,
and once more before the hits are asked for.  Between two looks it issues at most three
statements: it fills a table, which is a drop and a creation, and asks for the keys or for
the number of the rows in it.  So once a search has been cancelled, at most two more
statements of its walk are issued, whichever statement it was cancelled on; then come the
drops of the clean-up, and nothing else.

What a computation may still issue is a budget.  A computation starts with a budget for
the time after a cancellation, and leaves a part of it to what follows.  The look at the
flag stands between the budgets of two aggregations.

## Main definitions

* `Backend.after` — the state after some statements.
* `Backend.WithinBudget` — the statements after a cancellation are within a budget.
* `Run.Ceases` — a computation stays within its budget once it is cancelled.
* `Prompt` — a computation that looks at the flag before it issues anything.

## Main results

* `Ceases.bind` — a sequence stays within the budget if the second part stays within what
  the first one leaves.
* `Aggregations.execute_prompt` — a walk issues at most two more statements.
* `search_ceases` — a cancelled search gives no answer, asks for no hits, and ceases.
* `cancelled_in_cleanup` — a failure may overtake a cancellation in the clean-up.
-/

namespace DocSearch

/-! ### States after statements -/

section States

variable {σ : Type} {b : Backend σ}

/-- The state after some statements that were issued one after the other. -/
def Backend.after (b : Backend σ) (state : σ) (issued : List Issued) : σ :=
  issued.foldl (fun state i => (b.run i.statement state).2) state

@[simp] theorem Backend.after_nil (state : σ) : b.after state [] = state := rfl

@[simp] theorem Backend.after_cons (state : σ) (i : Issued) (issued : List Issued) :
    b.after state (i :: issued) = b.after (b.run i.statement state).2 issued := rfl

theorem Backend.after_append (state : σ) (first second : List Issued) :
    b.after state (first ++ second) = b.after (b.after state first) second :=
  List.foldl_append

/-- A search that has been cancelled stays cancelled. -/
def Backend.StaysCancelled (b : Backend σ) : Prop :=
  ∀ s state, b.cancelled state = true → b.cancelled (b.run s state).2 = true

theorem Backend.StaysCancelled.after (hstays : b.StaysCancelled) {state : σ}
    (hcancelled : b.cancelled state = true) (issued : List Issued) :
    b.cancelled (b.after state issued) = true := by
  induction issued generalizing state with
  | nil => exact hcancelled
  | cons i issued ih =>
    rw [Backend.after_cons]
    exact ih (hstays i.statement state hcancelled)

/-- A search that is not cancelled at the end was not cancelled before. -/
theorem Backend.StaysCancelled.before (hstays : b.StaysCancelled) {state : σ}
    (issued : List Issued) (hlater : b.cancelled (b.after state issued) = false) :
    b.cancelled state = false := by
  cases h : b.cancelled state with
  | false => rfl
  | true =>
    have htrue := hstays.after h issued
    rw [hlater] at htrue
    cases htrue

/-- The statements after a cancellation, and `rest` more, are within a budget: `first` if
the search was cancelled at the start, and `limit` if it was cancelled on the way. -/
def Backend.WithinBudget (b : Backend σ) (first limit rest : Nat) (state : σ)
    (issued : List Issued) : Prop :=
  ∀ before later, issued = before ++ later → b.cancelled (b.after state before) = true →
    later.length + rest ≤ if b.cancelled state then first else limit

/-- What the first statements leave is the budget of the second ones. -/
theorem Backend.WithinBudget.append (hstays : b.StaysCancelled) {first limit rest left : Nat}
    {state : σ} {issued later : List Issued} (h : b.WithinBudget first limit rest state issued)
    (h' : b.WithinBudget rest limit left (b.after state issued) later) :
    b.WithinBudget first limit left state (issued ++ later) := by
  intro before behind hsplit hcancelled
  rcases List.append_eq_append_iff.mp hsplit with ⟨middle, rfl, hlater⟩ | ⟨middle, rfl, rfl⟩
  · -- cancelled in the second part, or when it starts
    rw [Backend.after_append] at hcancelled
    have hbehind := h' middle behind hlater hcancelled
    cases hflag : b.cancelled (b.after state issued) with
    | true =>
      rw [hflag, if_pos rfl] at hbehind
      have hrest := h issued [] (List.append_nil issued).symm hflag
      rw [List.length_nil, Nat.zero_add] at hrest
      exact Nat.le_trans hbehind hrest
    | false =>
      rw [hflag, if_neg Bool.false_ne_true] at hbehind
      rw [hstays.before issued hflag, if_neg Bool.false_ne_true]
      exact hbehind
  · -- cancelled in the first part, so the second one has what is left
    have hflag : b.cancelled (b.after state (before ++ middle)) = true := by
      rw [Backend.after_append]
      exact hstays.after hcancelled middle
    have hmiddle := h before middle rfl hcancelled
    have hlater := h' [] later rfl hflag
    rw [if_pos hflag] at hlater
    rw [List.length_append]
    omega

end States

/-! ### Budgets -/

namespace Run

variable {σ ε ε' α β : Type}

/-- What a computation leaves to those that follow: nothing follows a failure. -/
def reserve (rest : Nat) : Except ε α → Nat
  | .ok _ => rest
  | .error _ => 0

/-- A computation has issued some statements, the earliest first, within its budget.  If it
succeeds, it leaves `rest` of the budget.  If it fails, either one of the statements has
failed, or there is an excuse, given whether the search has been cancelled in the end. -/
structure CeasesWith (b : Backend σ) (excuse : Bool → ε → Prop) (first limit rest : Nat)
    (r : Run σ ε α) (w : World σ) (issued : List Issued) : Prop where
  /-- The statements are in the log. -/
  log_eq : (r.within w).2.log = issued.reverse ++ w.log
  /-- They have led to the state. -/
  state_eq : (r.within w).2.state = b.after w.state issued
  /-- Those after a cancellation are within the budget. -/
  bound : b.WithinBudget first limit (reserve rest (r.within w).1) w.state issued
  /-- A failure is that of a statement, or has an excuse. -/
  excused : ∀ e, (r.within w).1 = .error e →
    (∃ i ∈ issued, i.failure ≠ none) ∨ excuse (b.cancelled (r.within w).2.state) e

/-- Once it is cancelled, a computation stays within its budget. -/
def Ceases (b : Backend σ) (excuse : Bool → ε → Prop) (first limit rest : Nat) (r : Run σ ε α)
    (w : World σ) : Prop := ∃ issued, CeasesWith b excuse first limit rest r w issued

variable {b : Backend σ} {excuse : Bool → ε → Prop} {first limit rest left : Nat} {w : World σ}

/-- A computation that issues nothing. -/
theorem Ceases.of_world_eq {r : Run σ ε α} (hworld : (r.within w).2 = w)
    (hrest : b.cancelled w.state = true → reserve rest (r.within w).1 ≤ first)
    (hexcuse : ∀ e, (r.within w).1 = .error e → excuse (b.cancelled w.state) e) :
    Ceases b excuse first limit rest r w := by
  refine ⟨[], by rw [hworld]; rfl, by rw [hworld]; rfl, fun before later h hcancelled => ?_,
    fun e he => .inr ?_⟩
  · obtain ⟨rfl, rfl⟩ := List.append_eq_nil_iff.mp h.symm
    have hflag : b.cancelled w.state = true := hcancelled
    rw [if_pos hflag, List.length_nil, Nat.zero_add]
    exact hrest hflag
  · rw [hworld]
    exact hexcuse e he

theorem Ceases.pure (a : α) (w : World σ) :
    Ceases b excuse rest limit rest (Pure.pure a : Run σ ε α) w :=
  .of_world_eq rfl (fun _ => Nat.le_refl rest) fun _ he => nomatch he

/-- **The second part stays within what the first one leaves.** -/
theorem Ceases.bind (hstays : b.StaysCancelled) {x : Run σ ε α} {f : α → Run σ ε β}
    (hx : Ceases b excuse first limit rest x w)
    (hf : ∀ a between, x.within w = (.ok a, between) →
      Ceases b excuse rest limit left (f a) between) :
    Ceases b excuse first limit left (x >>= f) w := by
  obtain ⟨issued, hissued⟩ := hx
  cases hxw : x.within w with
  | mk result between =>
    obtain ⟨hlog, hstate, hbound, hexcused⟩ := hissued
    rw [hxw] at hlog hstate hbound hexcused
    cases result with
    | error e =>
      have hall : (x >>= f).within w = (.error e, between) := by rw [within_bind, hxw]
      rw [Ceases]
      refine ⟨issued, ?_, ?_, ?_, ?_⟩ <;> rw [hall]
      · exact hlog
      · exact hstate
      · exact hbound
      · intro e' he'
        cases he'
        exact hexcused e rfl
    | ok a =>
      have hall : (x >>= f).within w = (f a).within between := by rw [within_bind, hxw]
      obtain ⟨later, hlog', hstate', hbound', hexcused'⟩ := hf a between hxw
      have hbetween : between.state = b.after w.state issued := hstate
      -- the statements of both parts: if the first ends cancelled, the second has what was left
      refine ⟨issued ++ later, ?_, ?_, ?_, ?_⟩
      · rw [hall, hlog', hlog, List.reverse_append, List.append_assoc]
      · rw [hall, hstate', hbetween, Backend.after_append]
      · rw [hall]
        rw [hbetween] at hbound'
        exact .append hstays hbound hbound'
      · rw [hall]
        intro e he
        rcases hexcused' e he with ⟨i, hi, hfailure⟩ | hexcuse
        · exact .inl ⟨i, List.mem_append_right _ hi, hfailure⟩
        · exact .inr hexcuse

/-- A computation that comes to the same from a world with the same state and log. -/
theorem Ceases.congr {r r' : Run σ ε α} {w' : World σ} (hrun : r.within w = r'.within w')
    (hstate : w'.state = w.state) (hlog : w'.log = w.log)
    (hr : Ceases b excuse first limit rest r' w') : Ceases b excuse first limit rest r w := by
  obtain ⟨issued, hlog', hstate', hbound, hexcused⟩ := hr
  rw [← hrun] at hlog' hstate' hbound hexcused
  rw [hlog] at hlog'
  rw [hstate] at hstate' hbound
  exact ⟨issued, hlog', hstate', hbound, hexcused⟩

/-- What is left for a cancellation at the start does not matter if there was none. -/
theorem Ceases.of_uncancelled {r : Run σ ε α} {other : Nat}
    (hr : Ceases b excuse other limit rest r w) (hcancelled : b.cancelled w.state = false) :
    Ceases b excuse first limit rest r w := by
  obtain ⟨issued, hlog, hstate, hbound, hexcused⟩ := hr
  refine ⟨issued, hlog, hstate, ?_, hexcused⟩
  rw [Backend.WithinBudget, hcancelled] at hbound ⊢
  exact hbound

/-- What is read from the world is known to what comes second. -/
theorem Ceases.read_bind {g : World σ → α} {f : α → Run σ ε β}
    (hf : Ceases b excuse first limit rest (f (g w)) w) :
    Ceases b excuse first limit rest (Run.read g >>= f) w := by
  have hrun : (Run.read g >>= f).within w = (f (g w)).within w := by
    rw [within_bind, within_read]
  exact hf.congr hrun rfl rfl

theorem Ceases.mapError {excuse' : Bool → ε' → Prop} {f : ε → ε'} {r : Run σ ε α}
    (hexcuse : ∀ cancelled e, excuse cancelled e → excuse' cancelled (f e))
    (hr : Ceases b excuse first limit rest r w) :
    Ceases b excuse' first limit rest (r.mapError f) w := by
  obtain ⟨issued, hlog, hstate, hbound, hexcused⟩ := hr
  refine ⟨issued, hlog, hstate, fun before later hsplit hcancelled => ?_, fun e he => ?_⟩
  · have hlater := hbound before later hsplit hcancelled
    rw [within_mapError]
    cases hresult : (r.within w).1 with
    | ok a =>
      rw [hresult] at hlater
      exact hlater
    | error e =>
      rw [hresult] at hlater
      exact hlater
  · rw [within_mapError] at he
    cases hresult : (r.within w).1 with
    | ok a =>
      rw [hresult] at he
      cases he
    | error e' =>
      rw [hresult] at he
      cases he
      exact (hexcused e' hresult).imp_right (hexcuse _ e')

theorem Ceases.withScope {r : Run σ ε α} {scope : Source}
    (hr : Ceases b excuse first limit rest r { w with scope }) :
    Ceases b excuse first limit rest (DocSearch.withScope scope r) w := by
  obtain ⟨issued, hlog, hstate, hbound, hexcused⟩ := hr
  exact ⟨issued, hlog, hstate, hbound, hexcused⟩

/-- One statement takes one from what is left after a cancellation. -/
theorem Ceases.issue {s : Statement} (hrest : rest ≤ limit) (w : World σ) :
    Ceases b (fun _ _ => False) (1 + rest) limit rest (DocSearch.issue b s) w := by
  have hreserve : reserve rest ((DocSearch.issue b s).within w).1 ≤ rest := by
    cases ((DocSearch.issue b s).within w).1 with
    | ok a => exact Nat.le_refl rest
    | error e => exact Nat.zero_le rest
  refine ⟨[⟨s, failureOf (b.run s w.state).1⟩], rfl, rfl, fun before later hsplit hflag => ?_,
    fun e he => .inl ⟨_, List.mem_singleton_self _, ?_⟩⟩
  · cases before with
    | nil =>
      have hcancelled : b.cancelled w.state = true := hflag
      rw [List.nil_append] at hsplit
      rw [if_pos hcancelled, ← hsplit, List.length_singleton]
      omega
    | cons i before =>
      have hnil : before ++ later = [] := (List.cons.inj hsplit).2.symm
      obtain ⟨-, rfl⟩ := List.append_eq_nil_iff.mp hnil
      rw [List.length_nil]
      split <;> omega
  · rw [within_issue] at he
    have hanswer : (b.run s w.state).1 = .error e := he
    rw [hanswer]
    exact Option.some_ne_none e

end Run

open Run

/-! ### Walks -/

section Walks

variable {σ : Type} {b : Backend σ} {c : SearchContext}

/-- It is not known how the values of a field are read as instants. -/
inductive Unmapped : ExecutionError → Prop where
  /-- The field has no declared type. -/
  | missing (field : String) : Unmapped (.noSuchFieldMapping field)
  /-- Values of the declared type are no instants. -/
  | unsupported (field : String) (type : FieldType) : Unmapped (.unsupportedFieldType field type)

theorem unmapped_of_bucketKey {field : String} {interval : Interval} {e : ExecutionError}
    (h : bucketKey c field interval = .error e) : Unmapped e := by
  unfold bucketKey at h
  split at h
  · cases h
    exact .missing field
  split at h
  · cases h
    exact .unsupported field _
  · cases h

/-- What a walk fails with when no statement has failed: that it is cancelled, or a field
of which it is not known how it is read, but this only if it is not cancelled. -/
def walkExcuse (cancelled : Bool) (e : ExecutionError) : Prop :=
  e = .cancelled ∨ (cancelled = false ∧ Unmapped e)

/-- A part of a walk that looks at the flag before it issues anything: it issues nothing if
it starts cancelled, and at most two more statements if it is cancelled on the way. -/
def Prompt {α : Type} (b : Backend σ) (r : Run σ ExecutionError α) : Prop :=
  ∀ w, Ceases b walkExcuse 0 2 0 r w

variable {α β : Type} {first limit rest : Nat} {w : World σ}

theorem Prompt.pure (a : α) : Prompt b (Pure.pure a : Run σ ExecutionError α) := Ceases.pure a

theorem Prompt.bind (hstays : b.StaysCancelled) {x : Run σ ExecutionError α}
    {f : α → Run σ ExecutionError β} (hx : Prompt b x) (hf : ∀ a, Prompt b (f a)) :
    Prompt b (x >>= f) :=
  fun w => (hx w).bind hstays fun a between _ => hf a between

theorem Prompt.mapM (hstays : b.StaysCancelled) {f : α → Run σ ExecutionError β} (as : List α)
    (hf : ∀ a, Prompt b (f a)) : Prompt b (as.mapM f) := by
  induction as with
  | nil => exact .pure []
  | cons a as ih =>
    rw [List.mapM_cons]
    exact (hf a).bind hstays fun result => ih.bind hstays fun results => .pure _

/-- **A look at the flag makes prompt** what stays within the budget if it starts before a
cancellation. -/
theorem Prompt.check (hstays : b.StaysCancelled) {r : Run σ ExecutionError α}
    (hr : ∀ w, b.cancelled w.state = false → Ceases b walkExcuse 0 2 0 r w) :
    Prompt b (checkCancelled b >>= fun _ => r) := by
  intro w
  have hlook : (checkCancelled b).within w =
      (if b.cancelled w.state then .error .cancelled else .ok (), w) := rfl
  have hcheck : Ceases b walkExcuse 0 2 0 (checkCancelled b) w := by
    refine .of_world_eq rfl (fun hcancelled => ?_) fun e he => ?_
    · rw [hlook, hcancelled]
      exact Nat.zero_le _
    · rw [hlook] at he
      split at he
      · cases he
        exact .inl rfl
      · cases he
  refine hcheck.bind hstays fun _ between hbetween => ?_
  rw [hlook] at hbetween
  obtain ⟨hresult, rfl⟩ := Prod.mk.inj hbetween
  cases hcancelled : b.cancelled w.state with
  | true =>
    rw [hcancelled] at hresult
    cases hresult
  | false => exact hr w hcancelled

/-- One statement of a walk. -/
theorem query_ceases {s : Statement} (hrest : rest ≤ limit) (w : World σ) :
    Ceases b walkExcuse (1 + rest) limit rest (query b s) w :=
  Ceases.mapError (fun _ _ h => h.elim) (Ceases.issue hrest w)

/-- A new table is dropped and created in a world in which its name is registered. -/
theorem within_materialize_eq {name : String} (selection : Selection) {w : World σ}
    (hname : w.arena.registered.contains name = false) :
    (materialize b name selection).within w = (do
      let _ ← issue b (.drop name)
      let _ ← issue b (.create name selection)
      pure () : Run σ StoreError Unit).within (w.registering name) := by
  have hfresh : (w.arena.register name).1 = true := by simp [Arena.register, hname]
  rw [materialize, Run.within_bind, Run.within_of]
  simp only [hfresh, if_true]
  rfl

/-- Filling a table takes two statements, so one of them may come after a cancellation. -/
theorem materialize_ceases (hstays : b.StaysCancelled) (name : String) (selection : Selection)
    (hrest : 1 + rest ≤ limit) (hcancelled : b.cancelled w.state = false) :
    Ceases b walkExcuse first limit rest
      ((materialize b name selection).mapError .aggregation) w := by
  suffices h : Ceases b (fun _ _ => False) first limit rest (materialize b name selection) w from
    h.mapError fun _ _ hfalse => hfalse.elim
  cases hname : w.arena.registered.contains name with
  | true =>
    have hwithin := within_materialize_of_registered b selection hname
    refine .of_world_eq (by rw [hwithin]) (fun hflag => ?_) fun e he => ?_
    · rw [hcancelled] at hflag
      cases hflag
    · rw [hwithin] at he
      cases he
  | false =>
    refine Ceases.congr (within_materialize_eq selection hname) rfl rfl ?_
    have hcreate : rest ≤ limit := by omega
    have hboth := (Ceases.issue (b := b) (s := .drop name) hrest (w.registering name)).bind hstays
      fun _ dropped _ => (Ceases.issue (s := .create name selection) hcreate dropped).bind hstays
        fun _ created _ => Ceases.pure () created
    exact hboth.of_uncancelled hcancelled

/-- One statement of a walk and what is made of its answer. -/
theorem answered_ceases (hstays : b.StaysCancelled) {s : Statement} (f : List Row → α)
    (hcancelled : b.cancelled w.state = false) :
    Ceases b walkExcuse first 2 0 (query b s >>= fun rows => Pure.pure (f rows)) w := by
  have hquery := (query_ceases (b := b) (s := s) (Nat.zero_le 2) w).bind hstays
    fun rows after _ => Ceases.pure (f rows) after
  exact hquery.of_uncancelled hcancelled

theorem runMetric_ceases (hstays : b.StaysCancelled) (m : Metric) (field : String)
    (hcancelled : b.cancelled w.state = false) :
    Ceases b walkExcuse first 2 0 (runMetric b m field) w :=
  Ceases.read_bind (answered_ceases hstays _ hcancelled)

theorem groupedBuckets_ceases (hstays : b.StaysCancelled) (key : BucketKey)
    (format : Option DateFormat) (hcancelled : b.cancelled w.state = false) :
    Ceases b walkExcuse first 2 0 (groupedBuckets b key format) w :=
  Ceases.read_bind (answered_ceases hstays _ hcancelled)

/-- A bucket looks at the flag, fills its table, counts it and leaves nothing to its
children, which look at the flag again. -/
theorem runBucket_prompt (hstays : b.StaysCancelled) (format : Option DateFormat)
    (bucketed : String) {children : Run σ ExecutionError (List (String × Json))}
    (hchildren : Prompt b children) (key : Int64) :
    Prompt b (runBucket b format bucketed children key) := by
  refine Prompt.check hstays fun w hcancelled => ?_
  have hfill : Ceases b walkExcuse 0 2 1 ((materialize b (bucketTableName bucketed key)
      (.bucket bucketed key)).mapError .aggregation) w :=
    materialize_ceases hstays _ _ (Nat.le_refl 2) hcancelled
  refine hfill.bind hstays fun _ filled _ => ?_
  refine (query_ceases (Nat.zero_le 2) filled).bind hstays fun rows counted _ => ?_
  refine Ceases.bind hstays ?_ fun results after _ => Ceases.pure _ after
  exact Ceases.withScope (hchildren _)

/-- The keys of the buckets are asked for with what the table of the buckets leaves. -/
theorem materializedBuckets_ceases (hstays : b.StaysCancelled) (key : BucketKey)
    (format : Option DateFormat) {children : Run σ ExecutionError (List (String × Json))}
    (hchildren : Prompt b children) (hcancelled : b.cancelled w.state = false) :
    Ceases b walkExcuse 0 2 0 (materializedBuckets b c key format children) w := by
  refine Ceases.read_bind ?_
  have hfill : Ceases b walkExcuse 0 2 1 ((materialize b
      (bucketedTableName b.dialect c w.scope key) (.bucketed key w.scope)).mapError
        .aggregation) w :=
    materialize_ceases hstays _ _ (Nat.le_refl 2) hcancelled
  refine hfill.bind hstays fun _ filled _ => ?_
  refine (query_ceases (Nat.zero_le 2) filled).bind hstays fun rows listed _ => ?_
  exact Prompt.mapM hstays _ (runBucket_prompt hstays format _ hchildren) listed

mutual

/-- **A walk issues at most two more statements** once it is cancelled. -/
theorem Aggregation.run_prompt (hstays : b.StaysCancelled) : ∀ a : Aggregation,
    Prompt b (Aggregation.run b c a)
  | .metric m field => by
    rw [Aggregation.run]
    exact Prompt.check hstays fun w hcancelled => runMetric_ceases hstays m field hcancelled
  | .dateHistogram field interval format children => by
    have hchildren := Aggregations.run_prompt hstays children
    rw [Aggregation.run]
    refine Prompt.check hstays fun w hcancelled => ?_
    have hkey : Ceases b walkExcuse 0 2 0 (Run.lift (bucketKey c field interval)) w := by
      refine .of_world_eq rfl (fun hflag => ?_) fun e he => .inr ⟨hcancelled, ?_⟩
      · rw [hcancelled] at hflag
        cases hflag
      · exact unmapped_of_bucketKey he
    refine hkey.bind hstays fun key between hbetween => ?_
    -- finding the key has changed nothing
    obtain ⟨-, rfl⟩ := Prod.mk.inj hbetween
    split
    · exact (groupedBuckets_ceases hstays key format hcancelled).bind hstays
        fun buckets after _ => Ceases.pure _ after
    · exact (materializedBuckets_ceases hstays key format hchildren hcancelled).bind hstays
        fun buckets after _ => Ceases.pure _ after

theorem Aggregations.run_prompt (hstays : b.StaysCancelled) :
    ∀ siblings : List (String × Aggregation), Prompt b (Aggregations.run b c siblings)
  | [] => by
    rw [Aggregations.run]
    exact .pure _
  | (name, a) :: rest => by
    rw [Aggregations.run]
    refine (Aggregation.run_prompt hstays a).bind hstays fun result => ?_
    exact (Aggregations.run_prompt hstays rest).bind hstays fun results => .pure _

end

theorem Aggregations.execute_prompt (hstays : b.StaysCancelled) (siblings : Aggregations) :
    Prompt b (Aggregations.execute b c siblings) :=
  Prompt.check hstays fun w _ => Aggregations.run_prompt hstays siblings w

end Walks

/-! ### Requests -/

section Requests

variable {σ : Type} {b : Backend σ} {c : SearchContext}

/-- The state is the one to which the statements of the log have led. -/
def World.Recorded (b : Backend σ) (start : σ) (w : World σ) : Prop :=
  w.state = b.after start w.log.reverse

/-- The clean-up records what it issues. -/
theorem release_recorded {start : σ} {w : World σ} (hw : w.Recorded b start) :
    ((release b).within w).2.Recorded b start := by
  have hdrop : DropsKeep b (World.Recorded b start) := by
    intro w name arena _ hw
    have hstate : w.state = b.after start w.log.reverse := hw
    show (b.run (.drop name) w.state).2 = _
    rw [within_issue, List.reverse_cons, Backend.after_append, ← hstate]
    rfl
  exact (release_keeps hdrop w).2 hw

/-- Why a search that is cancelled sooner or later fails with `e`. -/
inductive Stopped (b : Backend σ) (c : SearchContext) (r : Request) (w : World σ)
    (walk cleanup : List Issued) : ExecutionError → Prop where
  /-- Because it was cancelled. -/
  | cancelled : Stopped b c r w walk cleanup .cancelled
  /-- Because the query cannot be compiled. -/
  | uncompiled {cause : QueryError} (h : r.predicate.compile = .error cause) :
    Stopped b c r w walk cleanup (.search (.query cause))
  /-- Because a statement of the walk has failed. -/
  | failed {i : Issued} {cause : StoreError} (hi : i ∈ walk) (h : i.failure = some cause) :
    Stopped b c r w walk cleanup (.aggregation cause)
  /-- Because the walk did not know how to read a field, before the search was cancelled. -/
  | unmapped {e : ExecutionError} (h : b.cancelled (b.after w.state walk) = false)
    (he : Unmapped e) : Stopped b c r w walk cleanup e
  /-- Because a drop has failed after a walk that has succeeded. -/
  | undropped {results : List (String × Json)} {cause : StoreError}
    (hwalk : walkResult b c r w = .ok results) (h : firstFailure cleanup = some cause) :
    Stopped b c r w walk cleanup (.aggregation cause)

/-- How a request ends: it has issued the statements of its walk and then the drops of the
clean-up.  Once it is cancelled its walk ceases, and a failure has one of the causes. -/
structure CeasedWith (b : Backend σ) (c : SearchContext) (r : Request) (w : World σ)
    (walk cleanup : List Issued) : Prop where
  /-- The walk comes first. -/
  walk_eq : (walkEnd b c r w).log = walk.reverse
  /-- The clean-up comes next. -/
  log_eq : ((runRequest b c r).within w).2.log = (walk ++ cleanup).reverse
  /-- The statements have led to the state. -/
  state_eq : ((runRequest b c r).within w).2.state = b.after w.state (walk ++ cleanup)
  /-- The clean-up drops the tables of the walk. -/
  drops : cleanup.map (·.statement) = (walkEnd b c r w).arena.names.map .drop
  /-- At most two statements of the walk come after a cancellation. -/
  ceases : ∀ before later, walk = before ++ later →
    b.cancelled (b.after w.state before) = true → later.length ≤ 2
  /-- None does if it comes before the walk. -/
  ceases_at_once : b.cancelled w.state = true → walk = []
  /-- A failure has one of the causes. -/
  stopped : ∀ e, ((runRequest b c r).within w).1 = .error e → Stopped b c r w walk cleanup e

/-- A cancellation in the walk or in the clean-up leaves at most two statements of the walk,
and one before the walk leaves none. -/
theorem CeasedWith.few {r : Request} {w : World σ} {walk cleanup before later : List Issued}
    (h : CeasedWith b c r w walk cleanup) (hsplit : walk ++ cleanup = before ++ later)
    (hcancelled : b.cancelled (b.after w.state before) = true) :
    (walk.drop before.length).length ≤ 2 ∧ (before = [] → walk = []) := by
  refine ⟨?_, fun hbefore => ?_⟩
  · rcases List.append_eq_append_iff.mp hsplit with ⟨middle, rfl, -⟩ | ⟨middle, rfl, -⟩
    · rw [List.length_drop, List.length_append]
      omega
    · rw [List.drop_left]
      exact h.ceases before middle rfl hcancelled
  · rw [hbefore] at hcancelled
    exact h.ceases_at_once hcancelled

/-- A walk that fails has one of the causes. -/
theorem Stopped.of_walk {r : Request} {w : World σ} {walk cleanup : List Issued}
    {e : ExecutionError} (hlog : w.log = []) (hwalk : (walkEnd b c r w).log = walk.reverse)
    (hstate : (walkEnd b c r w).state = b.after w.state walk)
    (hfailed : walkResult b c r w = .error e)
    (hexcused : (∃ i ∈ walk, i.failure ≠ none) ∨
      walkExcuse (b.cancelled (walkEnd b c r w).state) e) :
    Stopped b c r w walk cleanup e := by
  rcases hexcused with ⟨i, hi, hfailure⟩ | rfl | ⟨hflag, hunmapped⟩
  · obtain ⟨cause, hcause⟩ := Option.ne_none_iff_exists'.mp hfailure
    -- the failure of a statement is what the walk fails with
    obtain ⟨issued, hissued, hends⟩ := walk_reports (b := b) (c := c) r w
    rw [hlog, List.append_nil, hwalk] at hissued
    rw [← hissued] at hends
    obtain ⟨heq, -⟩ := hends.of_failed (List.mem_reverse.mpr hi) hcause
    rw [hfailed] at heq
    cases heq
    exact .failed hi hcause
  · exact .cancelled
  · rw [hstate] at hflag
    exact .unmapped hflag hunmapped

/-- **A request ceases** once it is cancelled. -/
theorem runRequest_ceases (hstays : b.StaysCancelled) (r : Request) {w : World σ}
    (harena : w.arena = Arena.empty) (hlog : w.log = []) :
    ∃ walk cleanup, CeasedWith b c r w walk cleanup := by
  have hresult := runRequest_result b c r w
  cases hr : r.predicate.compile with
  | error cause =>
    -- nothing is issued before the query is compiled
    have hend : walkEnd b c r w = w := by rw [walkEnd, hr]
    have hworld := runRequest_world_of_error b c w hr
    refine ⟨[], [], by rw [hend, hlog]; rfl, by rw [hworld, hlog]; rfl, by rw [hworld]; rfl,
      by rw [hend, harena]; rfl, fun before later hsplit _ => ?_, fun _ => rfl, fun e he => ?_⟩
    · obtain ⟨-, rfl⟩ := List.append_eq_nil_iff.mp hsplit.symm
      exact Nat.zero_le 2
    · rw [hresult, hr] at he
      cases he
      exact .uncompiled hr
  | ok condition =>
    have hworld := runRequest_world b c w hr
    have hend : walkEnd b c r w = ((withScope (.documents c.targets c.types condition)
        (Aggregations.execute b c r.aggregations)).within w).2 := by rw [walkEnd, hr]
    have hwalked : walkResult b c r w = ((withScope (.documents c.targets c.types condition)
        (Aggregations.execute b c r.aggregations)).within w).1 := by rw [walkResult, hr]
    obtain ⟨walk, hwalk⟩ : Ceases b walkExcuse 0 2 0 (withScope
        (.documents c.targets c.types condition) (Aggregations.execute b c r.aggregations)) w :=
      Ceases.withScope (Aggregations.execute_prompt hstays r.aggregations _)
    obtain ⟨hwalkLog, hwalkState, hbound, hexcused⟩ := hwalk
    rw [← hend] at hwalkLog hwalkState hexcused
    rw [← hwalked] at hbound hexcused
    rw [hlog, List.append_nil] at hwalkLog
    obtain ⟨cleanup, hcleanup, hdrops, hrelease⟩ := release_failure b (walkEnd b c r w)
    have hall : ((runRequest b c r).within w).2.log = (walk ++ cleanup).reverse := by
      rw [hworld, hcleanup, hwalkLog, List.reverse_append]
    have hrecorded : (walkEnd b c r w).Recorded b w.state := by
      rw [World.Recorded, hwalkLog, List.reverse_reverse]
      exact hwalkState
    have hstate : ((runRequest b c r).within w).2.state = b.after w.state (walk ++ cleanup) := by
      have hreleased : _ = _ := release_recorded hrecorded
      rw [hworld, hreleased, ← hworld, hall, List.reverse_reverse]
    refine ⟨walk, cleanup, hwalkLog, hall, hstate, hdrops, fun before later hsplit hflag => ?_,
      fun hflag => ?_, fun e he => ?_⟩
    · have hlater := hbound before later hsplit hflag
      split at hlater <;> omega
    · have hlater := hbound [] walk rfl hflag
      rw [if_pos hflag] at hlater
      exact List.length_eq_zero_iff.mp (by omega)
    · rw [hresult, hr, hrelease] at he
      cases hwalkResult : walkResult b c r w with
      | error e' =>
        rw [hwalkResult] at he
        cases he
        exact .of_walk hlog hwalkLog hwalkState hwalkResult (hexcused e hwalkResult)
      | ok results =>
        rw [hwalkResult] at he
        cases hfirst : firstFailure cleanup with
        | none =>
          rw [hfirst] at he
          cases he
        | some cause =>
          rw [hfirst] at he
          cases he
          exact .undropped hwalkResult hfirst

/-- A search that has been cancelled asks for no hits. -/
theorem finish_of_cancelled (call : SearchCall) (r : Request) (found : Outcome) {w : World σ}
    (hcancelled : b.cancelled w.state = true) :
    (finish b c call r found).within w = (.error .cancelled, w) := by
  rw [finish, Run.within_bind, checkCancelled, Run.within_of, hcancelled]
  rfl

end Requests

/-! ### A histogram over no rows that is cancelled -/

/-- The text of an object is not blank. -/
theorem isAllBlank_print_obj (ms : List (String × Json)) :
    Text.isAllBlank (Json.obj ms).print = false := by
  simp [Text.isAllBlank, Json.print, Text.isBlank]

/-- A request for aggregations only. -/
theorem readRequest_aggregations {body : String} {siblings : Aggregations}
    (hprint : body = (Json.obj [("aggs", siblings.toJson)]).print)
    (hbody : Json.read body = some (.obj [("aggs", siblings.toJson)]))
    (hsiblings : Aggregations.Readable siblings) :
    readRequest {} body = .ok ⟨.matchAll, siblings, 0, 10, [], body⟩ := by
  have hblank : Text.isAllBlank body = false := by
    rw [hprint]
    exact isAllBlank_print_obj _
  have hread := Aggregations.ofJson_of_readable hsiblings
  simp [readRequest, Request.read, hblank, hbody, Request.member, hread, bind, Except.bind, pure,
    Except.pure, Except.map, Request.everything]

namespace Replay

variable {d : Dialect}

theorem staysCancelled : (backend d).StaysCancelled := by
  intro s r hcancelled
  have hflag : r.cancelled = true := hcancelled
  show (run s r).2.cancelled = true
  rw [run]
  split
  · simp [arrive, hflag]
  · split <;> simp [arrive, hflag]

/-- A histogram with a child. -/
def days : Aggregation := .dateHistogram "at" .day none [("n", .metric .valueCount "n")]

/-- The text of a request for aggregations. -/
def bodyOf (siblings : Aggregations) : String := (Json.obj [("aggs", siblings.toJson)]).print

theorem readable_days : days.Readable := by
  have hat : Field.checkName "at" = .ok () := rfl
  have hn : Field.checkName "n" = .ok () := rfl
  exact ⟨hat, fun f hf => absurd hf (Option.not_mem_none f), hn, trivial⟩

theorem readRequest_days : readRequest {} (bodyOf [("h", days)]) =
    .ok ⟨.matchAll, [("h", days)], 0, 10, [], bodyOf [("h", days)]⟩ := by
  have hbody : Json.read (bodyOf [("h", days)]) =
      some (.obj [("aggs", Aggregations.toJson [("h", days)])]) := by cbv
  exact readRequest_aggregations rfl hbody ⟨readable_days, trivial⟩

/-- How a script starts that has the index `p`, given the commands that fail and the
statement on which the search is cancelled. -/
def starting (failing : List Nat) (cancelAt : Option Nat) : Replay :=
  { indices := ["p"], failingCommands := failing, cancelAt }

theorem resolveTargets_starting (failing : List Nat) (cancelAt : Option Nat) :
    ((resolveTargets (backend d) ["p"]).within (World.start (starting failing cancelAt))).1 =
      .ok [⟨"p", "sift_idx_p"⟩] := by
  have htable : Index.tableName "p" = .ok "sift_idx_p" := by cbv
  have hfor : (backend d).tableFor "p" (starting failing cancelAt) = .ok (some "sift_idx_p") := by
    simp [backend, tableFor, htable, starting, bind, Except.bind, pure, Except.pure]
  have htargets : targetsFor
      (fun index => (backend d).tableFor index (starting failing cancelAt)) ["p"] =
        .ok [⟨"p", "sift_idx_p"⟩] := by
    simp [targetsFor, targetFor, hfor, bind, Except.bind, pure, Except.pure]
  have hresolve : (resolveTargets (backend d) ["p"]).within
      (World.start (starting failing cancelAt)) =
        (.ok [⟨"p", "sift_idx_p"⟩], World.start (starting failing cancelAt)) := by
    refine within_bind_eq_ok.mpr ⟨starting failing cancelAt, World.start _, rfl,
      within_bind_eq_ok.mpr ⟨["p"], World.start _, rfl, ?_⟩⟩
    rw [within_lift, htargets]
  rw [hresolve]

/-- A walk from a script has filled a table and asked for its keys, and has registered its
name. -/
structure Filled (script : Replay) (name : String) (selection : Selection) (w : World Replay) :
    Prop where
  /-- Three statements have arrived. -/
  state_eq : w.state = { script.arrive.arrive.arrive with commands := 2 }
  /-- The name is registered. -/
  names_eq : w.arena.names = [name]
  /-- None of the statements has failed. -/
  log_eq : w.log = [⟨.buckets name, none⟩, ⟨.create name selection, none⟩, ⟨.drop name, none⟩]

/-- A histogram over no rows, and siblings that issue nothing. -/
theorem exists_execute_days {c : SearchContext} {rest : Aggregations} (failing : List Nat)
    (cancelAt : Option Nat) (scope : Source) {others : Except ExecutionError (List (String × Json))}
    (hkey : bucketKey c "at" .day = .ok ⟨"at", .formatted, .day⟩)
    (h₀ : 0 ∉ failing) (h₁ : 1 ∉ failing)
    (hrest : ∀ w,
      w.state = { (starting failing cancelAt).arrive.arrive.arrive with commands := 2 } →
        (Aggregations.run (backend d) c rest).within w = (others, w)) :
    ∃ name selection after, (Aggregations.execute (backend d) c (("h", days) :: rest)).within
        { state := starting failing cancelAt, scope } =
          (others.map (("h", .obj [("buckets", .arr [])]) :: ·), after) ∧
      Filled (starting failing cancelAt) name selection after := by
  have hdays :=
    within_emptyHistogram d hkey ("n", .metric .valueCount "n") ["p"] cancelAt scope h₀ h₁
  refine ⟨_, _, _, Aggregations.within_execute_cons rfl hdays (hrest _ rfl), rfl, ?_, rfl⟩
  simp [Arena.register, Arena.empty]

/-- The clean-up drops the table, which is the third command. -/
theorem exists_release_days {failing : List Nat} {cancelAt : Option Nat} {name : String}
    {selection : Selection} {w : World Replay}
    (hw : Filled (starting failing cancelAt) name selection w) :
    ∃ answer failure behind, (release (backend d)).within w = (answer, behind) ∧
      behind.log = ⟨.drop name, failure⟩ :: w.log ∧
      behind.state.cancelled = w.state.arrive.cancelled ∧
      (2 ∈ failing → answer = .error (.invalidIndexName "execute 2")) := by
  have hcommands : w.state.commands = 2 := by rw [hw.state_eq]
  have hfailing : w.state.failingCommands = failing := by rw [hw.state_eq]; rfl
  rw [within_release_singleton hw.names_eq]
  by_cases h : 2 ∈ failing
  · rw [within_failing_command d rfl (by rw [hcommands, hfailing]; exact h)]
    exact ⟨_, _, _, rfl, rfl, rfl, fun _ => by rw [hcommands]; rfl⟩
  · rw [within_command d rfl (by rw [hcommands, hfailing]; exact h)]
    exact ⟨_, _, _, rfl, rfl, rfl, fun h' => absurd h' h⟩

/-- What a search in the index `p` is about. -/
def datedContext (body : String) : SearchContext :=
  ⟨[⟨"p", "sift_idx_p"⟩], [], Mappings.empty.put "p" none "at" .date, body⟩

/-- A search in the index `p` over a script. -/
def searchDays (body : String) (script : Replay) :
    Except ExecutionError Response × World Replay :=
  (search (backend .sqlite) (Mappings.empty.put "p" none "at" .date) {}
    { body, indices := ["p"] }).within (World.start script)

/-- A search that is cancelled on the drop of its clean-up fails with `e`, although its
request is read, its target is found, its query is compiled and no statement of its walk
fails. -/
structure FailsOtherwise (body : String) (siblings : Aggregations) (failing : List Nat)
    (e : ExecutionError) : Prop where
  /-- The request is read. -/
  read : readRequest {} body = .ok ⟨.matchAll, siblings, 0, 10, [], body⟩
  /-- The target is found. -/
  resolved : ((resolveTargets (backend .sqlite) ["p"]).within
    (World.start (starting failing (some 3)))).1 = .ok [⟨"p", "sift_idx_p"⟩]
  /-- The query is compiled. -/
  compiled : Predicate.matchAll.compile = .ok none
  /-- The walk fills a table and asks for its keys, and the clean-up drops it. -/
  log_eq : ∃ name selection failure, (searchDays body (starting failing (some 3))).2.log =
    [⟨.drop name, failure⟩, ⟨.buckets name, none⟩, ⟨.create name selection, none⟩,
      ⟨.drop name, none⟩]
  /-- The search has been cancelled. -/
  cancelled : (searchDays body (starting failing (some 3))).2.state.cancelled = true
  /-- It fails with this. -/
  fails : (searchDays body (starting failing (some 3))).1 = .error e

/-- A histogram over no rows, if a sibling that issues nothing or else the drop fails. -/
theorem failsOtherwise_days {body : String} {rest : Aggregations} {failing : List Nat}
    {others : Except ExecutionError (List (String × Json))} {e : ExecutionError}
    (hread : readRequest {} body = .ok ⟨.matchAll, ("h", days) :: rest, 0, 10, [], body⟩)
    (h₀ : 0 ∉ failing) (h₁ : 1 ∉ failing)
    (hrest : ∀ w, w.state.cancelled = false →
      (Aggregations.run (backend .sqlite) (datedContext body) rest).within w = (others, w))
    (hfails : others = .error e ∨ ∃ results, others = .ok results ∧ 2 ∈ failing ∧
      e = .aggregation (.invalidIndexName "execute 2")) :
    FailsOtherwise body (("h", days) :: rest) failing e := by
  obtain ⟨name, selection, after, hwalk, hafter⟩ :=
    exists_execute_days (c := datedContext body) failing (some 3)
      (.documents [⟨"p", "sift_idx_p"⟩] [] none) rfl h₀ h₁ fun w hw => hrest w (by rw [hw]; rfl)
  have hscoped : Filled (starting failing (some 3)) name selection
      { after with scope := .documents [⟨"p", "sift_idx_p"⟩] [] none } :=
    ⟨hafter.state_eq, hafter.names_eq, hafter.log_eq⟩
  obtain ⟨answer, failure, behind, hrelease, hlog, hcancelled, hanswer⟩ :=
    exists_release_days (d := .sqlite) hscoped
  -- the sibling comes first if it fails; otherwise it is the drop that the clean-up fails with
  have hfails' : others.map (("h", Json.obj [("buckets", .arr [])]) :: ·) = .error e ∨
      ∃ results cause, others.map (("h", Json.obj [("buckets", .arr [])]) :: ·) = .ok results ∧
        answer = .error cause ∧ e = .aggregation cause := by
    rcases hfails with rfl | ⟨results, rfl, hfailing, rfl⟩
    · exact .inl rfl
    · exact .inr ⟨_, _, rfl, hanswer hfailing, rfl⟩
  have hresolved := resolveTargets_starting (d := .sqlite) failing (some 3)
  have hrequest := runRequest_within_of_failed (c := datedContext body)
    (r := ⟨.matchAll, ("h", days) :: rest, 0, 10, [], body⟩)
    (w := { state := starting failing (some 3)
            scope := .documents [⟨"p", "sift_idx_p"⟩] [] none }) rfl hwalk hrelease hfails'
  have hsearch : searchDays body (starting failing (some 3)) = _ :=
    search_within_of_failed hread hresolved hrequest
  refine ⟨hread, hresolved, rfl, ⟨name, selection, failure, ?_⟩, ?_, ?_⟩ <;> rw [hsearch]
  · rw [← hafter.log_eq]
    exact hlog
  · refine hcancelled.trans ?_
    rw [hscoped.state_eq]
    rfl

end Replay

open Replay

/-! ### Searches -/

/-- **A search that is cancelled ceases, and gives no answer.**  Unless the request cannot
be read or a target is not there, the statements of a search are those of its walk, then a
drop for each table that the walk has registered, then those for the hits.  If the search
is cancelled before its first statement or on one of the walk or of the clean-up, at most
two statements of the walk follow, or none if it is cancelled before the first, and no hits
are asked for.  The search fails then: because it was cancelled, unless the query cannot be
compiled or a statement of the walk has failed, or unless the walk has ended before for a
field that it could not read, or a drop has failed after a walk that has succeeded. -/
theorem search_ceases {σ : Type} {b : Backend σ} (hstays : b.StaysCancelled)
    (mappings : Mappings) (options : RequestOptions) (call : SearchCall) (state : σ) :
    let run := (search b mappings options call).within (World.start state)
    ((∃ e, run.1 = .error e ∧ (readRequest options call.body = .error e ∨
        ((resolveTargets b call.indices).within (World.start state)).1 = .error e)) ∧
      run.2.log = []) ∨
    ∃ r targets, readRequest options call.body = .ok r ∧
      ((resolveTargets b call.indices).within (World.start state)).1 = .ok targets ∧
      let c : SearchContext := ⟨targets, call.types, mappings, r.source⟩
      let w : World σ := { state, scope := .documents targets call.types none }
      ∃ walk cleanup hits : List Issued,
        (walkEnd b c r w).log.reverse = walk ∧
        cleanup.map (·.statement) = (walkEnd b c r w).arena.names.map .drop ∧
        run.2.log.reverse = walk ++ cleanup ++ hits ∧
        ∀ before later, walk ++ cleanup = before ++ later →
          b.cancelled (b.after state before) = true →
            hits = [] ∧ (walk.drop before.length).length ≤ 2 ∧ (before = [] → walk = []) ∧
            ∃ e, run.1 = .error e ∧ Stopped b c r w walk cleanup e := by
  intro run
  cases hr : readRequest options call.body with
  | error e =>
    have hrun : run = (.error e, World.start state) := search_within_of_unread hr
    rw [hrun]
    exact .inl ⟨⟨e, rfl, .inl rfl⟩, rfl⟩
  | ok r =>
    cases htargets : ((resolveTargets b call.indices).within (World.start state)).1 with
    | error e =>
      have hrun : run = (.error e, World.start state) := search_within_of_unresolved hr htargets
      rw [hrun]
      exact .inl ⟨⟨e, rfl, .inr rfl⟩, rfl⟩
    | ok targets =>
      refine .inr ⟨r, targets, rfl, rfl, ?_⟩
      intro c w
      obtain ⟨walk, cleanup, hceased⟩ := runRequest_ceases (c := c) hstays r (w := w) rfl rfl
      have hlog := hceased.log_eq
      have hstate := hceased.state_eq
      have hstopped := hceased.stopped
      have hrun : run = _ := search_within hr htargets
      have hwalked : (walkEnd b c r w).log.reverse = walk := by
        rw [hceased.walk_eq, List.reverse_reverse]
      cases hrequest : (runRequest b c r).within w with
      | mk result after =>
        have hfound : (runRequest b ⟨targets, call.types, mappings, r.source⟩ r).within
            { World.start state with scope := .documents targets call.types none } =
              (result, after) := hrequest
        rw [hfound] at hrun
        rw [hrequest] at hlog hstate hstopped
        cases result with
        | error e =>
          refine ⟨walk, cleanup, [], hwalked, hceased.drops, ?_,
            fun before later hsplit hcancelled => ?_⟩
          · rw [hrun, List.append_nil, ← List.reverse_reverse (walk ++ cleanup)]
            exact congrArg List.reverse hlog
          · obtain ⟨hbound, hnone⟩ := hceased.few hsplit hcancelled
            exact ⟨rfl, hbound, hnone, e, by rw [hrun], hstopped e rfl⟩
        | ok found =>
          obtain ⟨hits, hhits, -⟩ := finish_reports (b := b) (c := c) call r found
            { after with scope := (World.start state).scope }
          refine ⟨walk, cleanup, hits.reverse, hwalked, hceased.drops, ?_,
            fun before later hsplit hcancelled => ?_⟩
          · rw [hrun, hhits]
            show (hits ++ after.log).reverse = _
            have hbefore : after.log = (walk ++ cleanup).reverse := hlog
            rw [hbefore, List.reverse_append, List.reverse_reverse]
          · -- the flag is looked at once more before the hits
            have hend : b.cancelled after.state = true := by
              have hafter : after.state = b.after state (walk ++ cleanup) := hstate
              rw [hafter, hsplit, Backend.after_append]
              exact hstays.after hcancelled later
            have hfinish := finish_of_cancelled (c := c) call r found
              (w := { after with scope := (World.start state).scope }) hend
            have hrun : run = (.error .cancelled,
                { after with scope := (World.start state).scope }) := hrun.trans hfinish
            rw [hfinish] at hhits
            have hnil : hits = [] := List.self_eq_append_left.mp hhits
            obtain ⟨hbound, hnone⟩ := hceased.few hsplit hcancelled
            exact ⟨by rw [hnil]; rfl, hbound, hnone, .cancelled, by rw [hrun], .cancelled⟩

/-- A search that is cancelled when it creates a table still asks for the keys of the table,
drops it, and fails. -/
theorem search_ceases_in_walk :
    let b := backend .sqlite
    let run := searchDays (bodyOf [("h", days)]) (starting [] (some 1))
    b.StaysCancelled ∧ ∃ name selection cleanup e,
      run.2.log.reverse = [⟨.drop name, none⟩, ⟨.create name selection, none⟩,
        ⟨.buckets name, none⟩] ++ cleanup ∧
      cleanup.map (·.statement) = [.drop name] ∧ run.1 = .error e := by
  refine ⟨staysCancelled, ?_⟩
  have hread := readRequest_days
  -- the text of the request is not looked at again
  generalize bodyOf [("h", days)] = body at hread ⊢
  have hresolved := resolveTargets_starting (d := .sqlite) [] (some 1)
  have hnil : ∀ w, w.state = { (starting [] (some 1)).arrive.arrive.arrive with commands := 2 } →
      (Aggregations.run (backend .sqlite) (datedContext body) []).within w = (.ok [], w) := by
    intro w _
    rw [Aggregations.run]
    rfl
  obtain ⟨name, selection, after, hwalk, hafter⟩ :=
    exists_execute_days (d := .sqlite) (c := datedContext body) [] (some 1)
      (.documents [⟨"p", "sift_idx_p"⟩] [] none) rfl List.not_mem_nil List.not_mem_nil hnil
  rcases search_ceases (staysCancelled (d := .sqlite)) (Mappings.empty.put "p" none "at" .date) {}
      { body, indices := ["p"] } (starting [] (some 1)) with
    ⟨⟨e, -, hunread | hunresolved⟩, -⟩ |
    ⟨r, targets, hr, htargets, walk, cleanup, hits, hwalked, hdrops, hlog, hceases⟩
  · rw [hread] at hunread
    cases hunread
  · rw [hresolved] at hunresolved
    cases hunresolved
  · rw [hread] at hr
    rw [hresolved] at htargets
    cases hr
    cases htargets
    have hend : walkEnd (backend .sqlite) (datedContext body)
        ⟨.matchAll, [("h", days)], 0, 10, [], body⟩
        { state := starting [] (some 1), scope := .documents [⟨"p", "sift_idx_p"⟩] [] none } =
          { after with scope := .documents [⟨"p", "sift_idx_p"⟩] [] none } :=
      walkEnd_of_execute rfl hwalk
    have hwalk : walk = [⟨.drop name, none⟩, ⟨.create name selection, none⟩,
        ⟨.buckets name, none⟩] := by
      have hafterLog := (congrArg World.log hend).trans hafter.log_eq
      exact hwalked.symm.trans (congrArg List.reverse hafterLog)
    have hnames := (congrArg (·.arena.names) hend).trans hafter.names_eq
    obtain ⟨hhits, -, -, e, he, -⟩ := hceases [⟨.drop name, none⟩, ⟨.create name selection, none⟩]
      (⟨.buckets name, none⟩ :: cleanup) (by rw [hwalk]; rfl) rfl
    refine ⟨name, selection, cleanup, e, ?_, ?_, he⟩
    · rw [hhits, List.append_nil, hwalk] at hlog
      exact hlog
    · exact hdrops.trans (congrArg (List.map Statement.drop) hnames)

/-- **A failure may overtake a cancellation in the clean-up.**  If the drop fails on which the
search is cancelled, or if the walk has ended for a field without a type, then the search
fails with that. -/
theorem cancelled_in_cleanup :
    let unknown : Aggregation := .dateHistogram "u" .day none []
    FailsOtherwise (bodyOf [("h", days)]) [("h", days)] [2]
      (.aggregation (.invalidIndexName "execute 2")) ∧
    FailsOtherwise (bodyOf [("h", days), ("g", unknown)]) [("h", days), ("g", unknown)] []
      (.noSuchFieldMapping "u") := by
  intro unknown
  have hu : Field.checkName "u" = .ok () := rfl
  have hunknown : unknown.Readable := ⟨hu, fun f hf => absurd hf (Option.not_mem_none f), trivial⟩
  constructor
  · refine failsOtherwise_days readRequest_days (by decide) (by decide) (fun w _ => ?_)
      (.inr ⟨[], rfl, by decide, rfl⟩)
    rw [Aggregations.run]
    rfl
  · have hbody : Json.read (bodyOf [("h", days), ("g", .dateHistogram "u" .day none [])]) =
        some (.obj [("aggs", Aggregations.toJson
          [("h", days), ("g", .dateHistogram "u" .day none [])])]) := by cbv
    have hread := readRequest_aggregations rfl hbody ⟨readable_days, hunknown, trivial⟩
    refine failsOtherwise_days hread (by decide) (by decide) (fun w hw => ?_) (.inl rfl)
    have hcheck : (checkCancelled (backend .sqlite)).within w = (.ok (), w) := by
      have hflag : (backend .sqlite).cancelled w.state = false := hw
      rw [checkCancelled, within_of, hflag]
      rfl
    rw [Aggregations.run, Aggregation.run, within_bind, within_bind, hcheck]
    rfl

end DocSearch
