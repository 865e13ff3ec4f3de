import DocSearch.Proofs.Engine.Alone
import DocSearch.Proofs.Engine.Lifetime

/-!
# Tables that are found registered

A table whose name is registered is taken to be there, and materializing it does nothing.
But its name is registered before the table is created, and stays registered if that fails.
So a call that succeeds has created the table, or found a table that an earlier call has
created, unless an earlier call of the same name has failed and nothing was released since:
then it does nothing and succeeds all the same.

## Main definitions

* `LastCreated` — the latest statement on a table that succeeded has created it.
* `Backend.HoldsTables` — which tables are there, as drops and creations change it; the
  database of a `Session` is of this kind.
* `uncreatedNames` — the names that are registered without a table.

## Main results

* `ArenaStep.accounted_after` — a step keeps the tables of the other registered names.
* `materialize_creates` — **a call that succeeds finds its table**, unless its name was
  registered without one.
* `reused_without_table` — otherwise it may find none.
-/

namespace DocSearch

/-! ### The latest statement on a table -/

/-- Whether a statement drops or creates a table. -/
def Issued.concerns (name : String) (i : Issued) : Bool :=
  match i.statement with
  | .drop table | .create table _ => table == name
  | _ => false

/-- The latest statement on a table that succeeded; the latest statement of the log comes
first. -/
def lastSuccess? (name : String) (log : List Issued) : Option Issued :=
  log.find? fun i => i.failure.isNone && i.concerns name

/-- The latest statement on a table that succeeded has created it. -/
def LastCreated (name : String) (log : List Issued) : Prop :=
  ∃ i selection, lastSuccess? name log = some i ∧ i.statement = .create name selection

theorem lastSuccess?_cons_of_not {name : String} {i : Issued} {log : List Issued}
    (h : (i.failure.isNone && i.concerns name) = false) :
    lastSuccess? name (i :: log) = lastSuccess? name log := by
  unfold lastSuccess?
  rw [List.find?_cons, h]

theorem lastSuccess?_cons_self {name : String} {i : Issued} {log : List Issued}
    (h : (i.failure.isNone && i.concerns name) = true) :
    lastSuccess? name (i :: log) = some i := by
  unfold lastSuccess?
  rw [List.find?_cons, h]

section Tables

variable {σ : Type} {b : Backend σ} {w : World σ} {name other : String}

/-! ### Tables that are there -/

/-- Which tables are there.  A drop takes its table away, a creation adds its table, and a
statement that fails changes nothing. -/
structure Backend.HoldsTables (b : Backend σ) (has : σ → String → Prop) : Prop where
  drop : ∀ {name : String} {state : σ} {rows : List Row},
    (b.run (.drop name) state).1 = .ok rows →
      ∀ other, has (b.run (.drop name) state).2 other ↔ has state other ∧ other ≠ name
  create : ∀ {name : String} {selection : Selection} {state : σ} {rows : List Row},
    (b.run (.create name selection) state).1 = .ok rows →
      ∀ other, has (b.run (.create name selection) state).2 other ↔ has state other ∨ other = name
  failed : ∀ {s : Statement} {state : σ} {e : StoreError}, (b.run s state).1 = .error e →
    ∀ other, has (b.run s state).2 other ↔ has state other

/-- A table was created by the latest statement on it that succeeded, so it is there. -/
structure Made (b : Backend σ) (name : String) (w : World σ) : Prop where
  created : LastCreated name w.log
  there : ∀ has, b.HoldsTables has → has w.state name

/-- A statement on another table, or one that fails, changes nothing for a table. -/
theorem Made.issued {s : Statement} (hw : Made b name w)
    (hs : ∀ failure, Issued.concerns name ⟨s, failure⟩ = false)
    (hkeeps : ∀ has, b.HoldsTables has → ∀ rows, (b.run s w.state).1 = .ok rows →
      has w.state name → has (b.run s w.state).2 name) :
    Made b name ((issue b s).within w).2 := by
  obtain ⟨⟨i, selection, hlast, hi⟩, hthere⟩ := hw
  refine ⟨⟨i, selection, ?_, hi⟩, ?_⟩
  · rw [within_issue, lastSuccess?_cons_of_not (by rw [hs, Bool.and_false])]
    exact hlast
  · intro has hhas
    have hbefore := hthere has hhas
    rw [within_issue]
    cases hanswer : (b.run s w.state).1 with
    | ok rows => exact hkeeps has hhas rows hanswer hbefore
    | error e => exact (hhas.failed hanswer name).mpr hbefore

theorem Made.drop (hw : Made b name w) (hne : other ≠ name) :
    Made b name ((issue b (.drop other)).within w).2 := by
  apply hw.issued
  · intro _
    exact beq_eq_false_iff_ne.mpr hne
  · intro has hhas rows hok hbefore
    exact (hhas.drop hok name).mpr ⟨hbefore, hne.symm⟩

theorem Made.create (hw : Made b name w) (hne : other ≠ name) (selection : Selection) :
    Made b name ((issue b (.create other selection)).within w).2 := by
  apply hw.issued
  · intro _
    exact beq_eq_false_iff_ne.mpr hne
  · intro has hhas rows hok hbefore
    exact (hhas.create hok name).mpr (.inl hbefore)

/-- A creation that succeeds makes its table. -/
theorem made_of_create {selection : Selection} {rows : List Row}
    (h : ((issue b (.create name selection)).within w).1 = .ok rows) :
    Made b name ((issue b (.create name selection)).within w).2 := by
  have hanswer : (b.run (.create name selection) w.state).1 = .ok rows := h
  rw [within_issue, hanswer]
  refine ⟨⟨_, selection, lastSuccess?_cons_self ?_, rfl⟩, ?_⟩
  · simp [failureOf, Issued.concerns]
  · intro has hhas
    exact (hhas.create hanswer name).mpr (.inr rfl)

end Tables

namespace Session

/-- A statement that fails changes nothing. -/
theorem run_of_error {s : Statement} {session : Session} {e : StoreError}
    (h : (run s session).1 = .error e) : (run s session).2 = session := by
  unfold run at h ⊢
  cases hanswer : session.database.answer s with
  | error e' => rfl
  | ok rows =>
    cases hexecute : session.database.execute s with
    | error e' => rfl
    | ok database =>
      rw [hanswer, hexecute] at h
      cases h

/-- A database that nobody else uses holds the tables that were created and not dropped. -/
theorem holdsTables :
    backend.HoldsTables fun session name => (session.database.temporaryTable? name).isSome where
  drop := by
    intro name session rows _ other
    show ((run (.drop name) session).2.database.temporaryTable? other).isSome = true ↔ _
    rw [run_drop, Database.temporaryTable?_dropTemporary]
    by_cases hother : other = name <;> simp [hother]
  create := by
    intro name selection session rows hok other
    replace hok : (run (.create name selection) session).1 = .ok rows := hok
    show ((run (.create name selection) session).2.database.temporaryTable? other).isSome = true ↔ _
    rw [run_create] at hok ⊢
    split
    · next hthere => simp [hthere] at hok
    · next hthere =>
      rw [if_neg hthere] at hok
      split at hok
      · rw [Database.temporaryTable?_addTemporary]
        by_cases hother : other = name <;> simp [hother]
      · cases hok
  failed := by
    intro s session e he other
    show ((run s session).2.database.temporaryTable? other).isSome = true ↔ _
    rw [run_of_error he]

end Session

/-! ### Names without a table -/

section Uncreated

variable {σ : Type} (b : Backend σ)

/-- The names that are registered without a table behind a step, given those before it. -/
def ArenaStep.uncreated (w : World σ) (names : List String) : ArenaStep → List String
  | .register name => if (w.arena.register name).1 then name :: names else names
  | .fill name selection =>
    match ((materialize b name selection).within w).1 with
    | .ok _ => names
    | .error _ => name :: names
  | .clear => []

/-- The names that are registered without a table behind some steps: those of calls that
have failed since the last release, and those that were registered by themselves. -/
def uncreatedFrom (names : List String) : List ArenaStep → World σ → List String
  | [], _ => names
  | s :: steps, w => uncreatedFrom (s.uncreated b w names) steps (s.after b w)

/-- The names that are registered without a table behind some steps from an empty arena. -/
def uncreatedNames (steps : List ArenaStep) (w : World σ) : List String :=
  uncreatedFrom b [] steps w

variable {w : World σ} {names : List String}

/-- Every registered name but those without a table has its table, and those without a
table are registered. -/
structure Accounted (names : List String) (w : World σ) : Prop where
  consistent : w.arena.Consistent
  registered : ∀ name ∈ names, name ∈ w.arena.names
  made : ∀ name ∈ w.arena.names, name ∉ names → Made b name w

/-- What materializing a table whose name is new comes to, for it and for the others. -/
theorem made_materialize {name : String} (selection : Selection)
    (hname : w.arena.registered.contains name = false) :
    (∀ other, name ≠ other → Made b other w →
        Made b other ((materialize b name selection).within w).2) ∧
      (((materialize b name selection).within w).1 = .ok () →
        Made b name ((materialize b name selection).within w).2) := by
  -- the drop leaves the other tables as they are, whether it succeeds or not
  have hdropped : ∀ other, name ≠ other → Made b other w →
      Made b other ((issue b (.drop name)).within (w.registering name)).2 := by
    intro other hne hother
    have hregistering : Made b other (w.registering name) := ⟨hother.created, hother.there⟩
    exact hregistering.drop hne
  rw [within_materialize_of_fresh b selection hname]
  cases hdrop : (issue b (.drop name)).within (w.registering name) with
  | mk answer dropped =>
    rw [hdrop] at hdropped
    cases answer with
    | error e =>
      refine ⟨hdropped, ?_⟩
      intro hok
      cases hok
    | ok rows =>
      constructor
      · intro other hne hother
        exact (hdropped other hne hother).create hne selection
      · intro hok
        obtain ⟨rows, hcreate, -⟩ := Steps.map_eq_ok.mp hok
        exact made_of_create hcreate

/-- A new name is registered, and the other tables are left alone. -/
theorem Accounted.registered_uncreated {name : String} {after : World σ}
    (hw : Accounted b names w) (hname : w.arena.registered.contains name = false)
    (harena : after.arena = (w.registering name).arena)
    (hothers : ∀ other, name ≠ other → Made b other w → Made b other after) :
    Accounted b (name :: names) after := by
  have hnames : after.arena.names = name :: w.arena.names := by
    rw [harena, World.names_registering hname]
  refine ⟨harena ▸ hw.consistent.register hname, ?_, ?_⟩
  · intro other hother
    rw [hnames]
    rcases List.mem_cons.mp hother with rfl | hother
    · exact List.mem_cons_self
    · exact List.mem_cons_of_mem _ (hw.registered other hother)
  · intro other hother hnot
    rw [hnames] at hother
    rw [List.mem_cons, not_or] at hnot
    have hold : other ∈ w.arena.names := List.mem_of_ne_of_mem hnot.1 hother
    exact hothers other (Ne.symm hnot.1) (hw.made other hold hnot.2)

/-- A new name is registered with its table. -/
theorem Accounted.registered_created {name : String} {after : World σ}
    (hw : Accounted b names w) (hname : w.arena.registered.contains name = false)
    (harena : after.arena = (w.registering name).arena)
    (hothers : ∀ other, name ≠ other → Made b other w → Made b other after)
    (hmade : Made b name after) : Accounted b names after := by
  obtain ⟨hconsistent, hregistered, hall⟩ := hw.registered_uncreated b hname harena hothers
  refine ⟨hconsistent, ?_, ?_⟩
  · intro other hother
    exact hregistered other (List.mem_cons_of_mem _ hother)
  · intro other hother hnot
    by_cases heq : other = name
    · rw [heq]
      exact hmade
    · exact hall other hother (by simp [heq, hnot])

/-- **What a step keeps.** -/
theorem ArenaStep.accounted_after (s : ArenaStep) (hw : Accounted b names w) :
    Accounted b (s.uncreated b w names) (s.after b w) := by
  cases s with
  | register name =>
    simp only [uncreated, after]
    cases hname : w.arena.registered.contains name with
    | true => simpa [World.registering, Arena.register, hname] using hw
    | false =>
      have hfresh : (w.arena.register name).1 = true := by simp [Arena.register, hname]
      rw [if_pos hfresh]
      exact hw.registered_uncreated b hname rfl fun other _ hother =>
        ⟨hother.created, hother.there⟩
  | fill name selection =>
    simp only [uncreated, after]
    cases hname : w.arena.registered.contains name with
    | true =>
      -- the name is registered, and nothing is done
      rw [within_materialize_of_registered b selection hname]
      exact hw
    | false =>
      have harena := arena_materialize b name selection w
      obtain ⟨hothers, hmade⟩ := made_materialize b selection hname
      cases hresult : ((materialize b name selection).within w).1 with
      | ok _ => exact hw.registered_created b hname harena hothers (hmade hresult)
      | error e => exact hw.registered_uncreated b hname harena hothers
  | clear =>
    obtain ⟨hempty, hconsistent, -, -⟩ := dropTables_released b none hw.consistent rfl
    refine ⟨hconsistent, ?_, ?_⟩
    · intro name hname
      cases hname
    · intro name hname
      have hnone : name ∈ ([] : List String) := hempty ▸ hname
      cases hnone

/-- **What a run keeps.** -/
theorem accounted_afterSteps (steps : List ArenaStep) (hw : Accounted b names w) :
    Accounted b (uncreatedFrom b names steps w) (afterSteps b steps w) := by
  induction steps generalizing w names with
  | nil => exact hw
  | cons s steps ih => exact ih (s.accounted_after b hw)

theorem accounted_of_empty (hw : w.arena = Arena.empty) : Accounted b [] w := by
  refine ⟨hw ▸ Arena.consistent_empty, ?_, ?_⟩
  · intro name hname
    cases hname
  · intro name hname
    rw [hw] at hname
    cases hname

/-- **A call that succeeds finds its table.**  After every sequence of steps from an empty
arena, whichever statements fail: if materializing a table succeeds, then the latest
statement on it that succeeded has created it, and it is there, unless its name was
registered without a table since the last release; then nothing is issued. -/
theorem materialize_creates (start : World σ) (hstart : start.arena = Arena.empty)
    (steps : List ArenaStep) (name : String) (selection : Selection)
    (hok : ((materialize b name selection).within (afterSteps b steps start)).1 = .ok ()) :
    let w := afterSteps b steps start
    let after := ((materialize b name selection).within w).2
    (name ∉ uncreatedNames b steps start → LastCreated name after.log ∧
      ∀ has, b.HoldsTables has → has after.state name) ∧
    (name ∈ uncreatedNames b steps start → after = w) := by
  intro w after
  have hw : Accounted b (uncreatedNames b steps start) w :=
    accounted_afterSteps b steps (accounted_of_empty b hstart)
  constructor
  · intro hname
    have hafter := (ArenaStep.fill name selection).accounted_after b hw
    -- the name is held afterwards, registered by this call or by an earlier one
    have hmem : name ∈ after.arena.names := by
      show name ∈ (Run.within _ _).2.arena.names
      rw [arena_materialize]
      cases hregistered : w.arena.registered.contains name with
      | true => simpa [Arena.register, hregistered] using (hw.consistent.contains name).mp hregistered
      | false => simp [Arena.register, hregistered]
    have hmade := hafter.made name hmem (by simpa [ArenaStep.uncreated, w, hok] using hname)
    exact ⟨hmade.created, hmade.there⟩
  · intro hname
    have hregistered := (hw.consistent.contains name).mpr (hw.registered name hname)
    show (Run.within _ _).2 = w
    rw [within_materialize_of_registered b selection hregistered]

end Uncreated

/-- A creation fails, the tables are released, and the next call creates the table. -/
theorem materialize_creates_again :
    let b := Session.backend
    let refused := Selection.verbatim (.raw "SELECT 1")
    let select := Selection.bucketed ⟨"at", .epochMillis, .day⟩ (.documents [] [] none)
    let start := World.start ⟨Database.empty, false⟩
    ∃ after, (materialize b "t" select).within (afterSteps b [.fill "t" refused, .clear] start) =
        (.ok (), after) ∧
      LastCreated "t" after.log ∧ (after.state.database.temporaryTable? "t").isSome := by
  intro b refused select start
  have hstart : start.arena.Holds [] := Arena.holds_empty
  have hfresh : start.arena.registered.contains "t" = false :=
    hstart.contains_eq_false List.not_mem_nil
  have hregistering : start.registering "t" =
      { start with arena := ⟨["t"], start.arena.registered.insert "t"⟩ } := by
    rw [World.registering, Arena.register_of_fresh hfresh]
    rfl
  -- a creation that fails leaves its name registered; it is the clean-up that takes it away
  have hcleared : (afterSteps b [.fill "t" refused, .clear] start).arena.Holds [] :=
    holds_afterSteps b [.fill "t" refused, .clear] hstart
  have hstate : ((afterSteps b [.fill "t" refused, .clear] start).registering "t").state =
      ⟨Database.empty, false⟩ := by
    simp only [World.registering, afterSteps, List.foldl_cons, List.foldl_nil, ArenaStep.after]
    rw [within_materialize_of_fresh b refused hfresh, hregistering]
    rfl
  have hok : ((materialize b "t" select).within
      (afterSteps b [.fill "t" refused, .clear] start)).1 = .ok () := by
    rw [within_materialize_of_fresh b select (hcleared.contains_eq_false List.not_mem_nil),
      within_issue, hstate]
    rfl
  have hlaw := (materialize_creates b start rfl _ "t" select hok).1 List.not_mem_nil
  cases hmade : (materialize b "t" select).within
    (afterSteps b [.fill "t" refused, .clear] start) with
  | mk answer after =>
    rw [hmade] at hok hlaw
    have hanswer : answer = .ok () := hok
    exact ⟨after, by rw [hanswer], hlaw.1, hlaw.2 _ Session.holdsTables⟩

/-- The creation fails, and the next call succeeds all the same. -/
theorem reused_without_table :
    let b := Replay.backend .sqlite
    let select := Selection.verbatim (.raw "SELECT 1")
    let w := afterSteps b [.fill "t" select] (World.start { failingCommands := [1] })
    ((materialize b "t" select).within w).1 = .ok () ∧
      ¬ LastCreated "t" ((materialize b "t" select).within w).2.log := by
  intro b select w
  let start : World Replay := World.start { failingCommands := [1] }
  have hstart : start.arena.Holds [] := Arena.holds_empty
  have hfresh : start.arena.registered.contains "t" = false :=
    hstart.contains_eq_false List.not_mem_nil
  have hregistered : w.arena.registered.contains "t" = true :=
    (holds_afterSteps b [.fill "t" select] hstart).contains_iff.mpr (List.mem_singleton.mpr rfl)
  rw [within_materialize_of_registered b select hregistered]
  refine ⟨rfl, ?_⟩
  rintro ⟨i, selection, hlast, hi⟩
  have hlog : lastSuccess? "t" w.log = some ⟨.drop "t", none⟩ := by
    show lastSuccess? "t" ((materialize b "t" select).within start).2.log = _
    rw [within_materialize_of_fresh b select hfresh]
    rfl
  rw [hlog] at hlast
  cases hlast
  cases hi

end DocSearch
