import DocSearch.Proofs.Engine.Failures

/-!
# The lifetime of an arena

Names are registered one after the other, by themselves or with a table, until a release
drops all of them; then names are registered anew.  When the arena goes away, what is left
is dropped in the same manner.  Any of these statements may fail, and none of the failures
changes which names are registered.

So the arena holds exactly the names that were registered since the last release, and over
its whole lifetime each registration is matched by one drop of a clean-up.

## Main definitions

* `ArenaStep` — what can happen to an arena, and `afterSteps`, the world behind it.
* `pendingNames` — the names that were registered since the last release.
* `registrations` — every registration among some steps.
* `cleanups` — the statements of all releases and of the end of the arena.

## Main results

* `ArenaStep.holds_after` — a step keeps the arena in line with the pending names.
* `release_cleans_up`, `discard_cleans_up` — what a clean-up issues, returns and leaves.
* `cleanups_perm` — each registration is matched by one drop.
* `arena_lifetime` — **the law of arenas**, for every sequence of steps.
-/

namespace DocSearch

/-! ### Steps -/

/-- What can happen to an arena. -/
inductive ArenaStep where
  /-- A name is registered. -/
  | register (name : String)
  /-- A table is materialized. -/
  | fill (name : String) (selection : Selection)
  /-- Every registered table is dropped. -/
  | clear

namespace ArenaStep

/-- The name that a step registers unless it is registered. -/
def name? : ArenaStep → Option String
  | register name | fill name _ => some name
  | clear => none

/-- The names behind a step, given those before it; the oldest comes first. -/
def pending (names : List String) (s : ArenaStep) : List String :=
  match s.name? with
  | some name => if name ∈ names then names else names ++ [name]
  | none => []

/-- The name that a step registers, if it is not among the names before it. -/
def registers (names : List String) (s : ArenaStep) : List String :=
  s.name?.toList.filter (· ∉ names)

end ArenaStep

/-- The names that were registered since the last release, the oldest first. -/
def pendingNames (steps : List ArenaStep) : List String := steps.foldl ArenaStep.pending []

/-- Every registration among some steps, given the names before them. -/
def registrations (names : List String) : List ArenaStep → List String
  | [] => []
  | s :: steps => s.registers names ++ registrations (s.pending names) steps

@[simp] theorem registrations_nil (names : List String) : registrations names [] = [] := rfl

@[simp] theorem registrations_cons (names : List String) (s : ArenaStep) (steps : List ArenaStep) :
    registrations names (s :: steps) =
      s.registers names ++ registrations (s.pending names) steps := rfl

section Steps

variable {σ : Type} (b : Backend σ)

/-- The world behind a step, whether it fails or not. -/
def ArenaStep.after (w : World σ) : ArenaStep → World σ
  | .register name => w.registering name
  | .fill name selection => ((materialize b name selection).within w).2
  | .clear => ((release b).within w).2

/-- The world behind some steps. -/
def afterSteps (steps : List ArenaStep) (w : World σ) : World σ := steps.foldl (ArenaStep.after b) w

/-- The statements that were issued between two worlds, the earliest first. -/
def issuedBetween (before after : World σ) : List Issued :=
  (after.log.take (after.log.length - before.log.length)).reverse

/-- The statements with which the releases among some steps clean up, and then the end of
the arena. -/
def cleanups : List ArenaStep → World σ → List Issued
  | [], w => issuedBetween w ((discard b : Run σ StoreError Unit).within w).2
  | .clear :: steps, w =>
    issuedBetween w ((release b).within w).2 ++ cleanups steps ((release b).within w).2
  | s :: steps, w => cleanups steps (s.after b w)

theorem issuedBetween_eq {before after : World σ} {issued : List Issued}
    (h : after.log = issued.reverse ++ before.log) : issuedBetween before after = issued := by
  unfold issuedBetween
  rw [h, List.length_append, Nat.add_sub_cancel, List.take_left, List.reverse_reverse]

end Steps

/-! ### Arenas that hold some names -/

namespace Arena

/-- An arena holds just these names, the oldest first, both in their order and to look
them up. -/
structure Holds (a : Arena) (names : List String) : Prop where
  consistent : a.Consistent
  names_eq : a.names = names.reverse

variable {a : Arena} {names : List String} {name : String}

theorem holds_empty : Arena.empty.Holds [] := ⟨consistent_empty, rfl⟩

theorem Holds.contains_iff (ha : a.Holds names) :
    a.registered.contains name = true ↔ name ∈ names := by
  rw [ha.consistent.contains, ha.names_eq, List.mem_reverse]

theorem Holds.contains_eq_false (ha : a.Holds names) (hname : name ∉ names) :
    a.registered.contains name = false := by
  rw [← Bool.not_eq_true, ha.contains_iff]
  exact hname

/-- The answer to a registration is whether the name is new. -/
theorem Holds.register_fst (ha : a.Holds names) :
    (a.register name).1 = true ↔ name ∉ names := by
  rw [← ha.contains_iff]
  cases hname : a.registered.contains name <;> simp [register, hname]

theorem Holds.register (ha : a.Holds names) :
    (a.register name).2.Holds (if name ∈ names then names else names ++ [name]) := by
  by_cases hname : name ∈ names
  · have hold : a.registered.contains name = true := ha.contains_iff.mpr hname
    rw [if_pos hname]
    simpa [Arena.register, hold] using ha
  · have hnew := ha.contains_eq_false hname
    rw [if_neg hname]
    refine ⟨ha.consistent.register hnew, ?_⟩
    rw [register_of_fresh hnew, ha.names_eq, List.reverse_append]
    rfl

end Arena

/-! ### Clean-ups -/

section Cleanups

variable {σ : Type} (b : Backend σ) {w : World σ} {names : List String}

/-- **A clean-up.**  It issues one drop for each name, the newest first, whichever of them
fail, and no name is left. -/
structure CleansUp (names : List String) (drops : List Issued) (w after : World σ) : Prop where
  log : after.log = drops.reverse ++ w.log
  drops : drops.map (·.statement) = names.reverse.map .drop
  holds : after.arena.Holds []

theorem CleansUp.issuedBetween_eq {drops : List Issued} {after : World σ}
    (h : CleansUp names drops w after) : issuedBetween w after = drops :=
  DocSearch.issuedBetween_eq h.log

/-- **A release drops every name and fails with the first failure among its drops.** -/
theorem release_cleans_up (hw : w.arena.Holds names) :
    ∃ drops, CleansUp names drops w ((release b).within w).2 ∧
      ((release b).within w).1 =
        match firstFailure drops with
        | some e => .error e
        | none => .ok () := by
  obtain ⟨drops, hlog, hdrops, hresult⟩ := release_failure b w
  obtain ⟨hnames, hconsistent, -, -⟩ := dropTables_released b none hw.consistent rfl
  rw [hw.names_eq] at hdrops
  exact ⟨drops, ⟨hlog, hdrops, hconsistent, hnames⟩, hresult⟩

/-- The end of an arena drops what is left of it. -/
theorem discard_cleans_up (hw : w.arena.Holds names) :
    ∃ drops, CleansUp names drops w ((discard b : Run σ StoreError Unit).within w).2 := by
  unfold discard
  by_cases hempty : w.arena.names.isEmpty
  · -- nothing is left, so nothing is issued
    have hnames : names = [] := by simpa [hw.names_eq] using hempty
    subst hnames
    refine ⟨[], ?_⟩
    rw [Run.within_of, if_pos hempty]
    exact ⟨rfl, rfl, hw⟩
  · obtain ⟨drops, hcleans, -⟩ := release_cleans_up b hw
    refine ⟨drops, ?_⟩
    rw [Run.within_of, if_neg hempty]
    exact hcleans

/-- In the middle of a release the names that are left are held in both ways. -/
theorem dropTables_consistent (count : Nat) (first : Option StoreError)
    (hw : w.arena.Consistent) : (dropTables b count first w).2.arena.Consistent := by
  induction count generalizing first w with
  | zero => exact hw
  | succ count ih =>
    cases hnames : w.arena.names with
    | nil => simpa [dropTables, Arena.pop?, hnames] using hw
    | cons name rest =>
      obtain ⟨answer, state, hdrop⟩ := dropTables_cons b hnames count first
      rw [hdrop]
      exact ih _ (hw.pop hnames)

end Cleanups

/-! ### Runs -/

section Runs

variable {σ : Type} (b : Backend σ) {w : World σ} {names : List String}

/-- Materializing a table does to the arena what registering its name does. -/
theorem arena_materialize (name : String) (selection : Selection) (w : World σ) :
    ((materialize b name selection).within w).2.arena = (w.arena.register name).2 := by
  rcases materialize_cases b name selection w with ⟨hold, h⟩ | ⟨-, _, _, h⟩ | ⟨-, _, _, h⟩
  · rw [h]
    simp [Arena.register, hold]
  · rw [h]
    rfl
  · rw [h]
    rfl

/-- **What a step keeps.**  The arena holds the names that are pending. -/
theorem ArenaStep.holds_after (s : ArenaStep) (hw : w.arena.Holds names) :
    (s.after b w).arena.Holds (s.pending names) := by
  cases s with
  | register name => exact hw.register
  | fill name selection =>
    show Arena.Holds (Run.within _ _).2.arena _
    rw [arena_materialize]
    exact hw.register
  | clear =>
    obtain ⟨drops, hcleans, -⟩ := release_cleans_up b hw
    exact hcleans.holds

/-- **What a run keeps.** -/
theorem holds_afterSteps (steps : List ArenaStep) (hw : w.arena.Holds names) :
    (afterSteps b steps w).arena.Holds (steps.foldl ArenaStep.pending names) := by
  induction steps generalizing w names with
  | nil => exact hw
  | cons s steps ih => exact ih (s.holds_after b hw)

/-- What a step registers comes on top of the names before it, unless it drops them. -/
theorem ArenaStep.pending_eq {s : ArenaStep} (hs : s ≠ .clear) (names : List String) :
    s.pending names = names ++ s.registers names := by
  cases s with
  | clear => exact absurd rfl hs
  | register name | fill name selection =>
    by_cases hname : name ∈ names <;> simp [pending, registers, name?, hname]

theorem drops_perm {names : List String} {drops : List Issued}
    (h : drops.map (·.statement) = names.reverse.map Statement.drop) :
    (drops.map (·.statement)).Perm (names.map .drop) := by
  rw [h]
  exact (List.reverse_perm names).map _

/-- **Each registration is matched by one drop of a clean-up.**  The names that were there
before the steps are dropped with the others. -/
theorem cleanups_perm (steps : List ArenaStep) (hw : w.arena.Holds names) :
    ((cleanups b steps w).map (·.statement)).Perm
      ((names ++ registrations names steps).map .drop) := by
  induction steps generalizing w names with
  | nil =>
    obtain ⟨drops, hcleans⟩ := discard_cleans_up b hw
    rw [registrations_nil, List.append_nil, cleanups, hcleans.issuedBetween_eq]
    exact drops_perm hcleans.drops
  | cons s steps ih =>
    have hnext := ih (s.holds_after b hw)
    by_cases hs : s = .clear
    · subst hs
      obtain ⟨drops, hcleans, -⟩ := release_cleans_up b hw
      rw [cleanups, hcleans.issuedBetween_eq, List.map_append, List.map_append]
      exact (drops_perm hcleans.drops).append hnext
    · have hcleanups : cleanups b (s :: steps) w = cleanups b steps (s.after b w) := by
        cases s with
        | clear => exact absurd rfl hs
        | register name | fill name selection => rfl
      rw [hcleanups, registrations_cons, ← List.append_assoc, ← s.pending_eq hs names]
      exact hnext

/-- **The law of arenas.**  After every sequence of steps from an empty arena, whichever
statements fail: the names are held once, in order and to look them up, and they are those
that were registered since the last release; in the middle of a release as well they are
held in both ways.  A registration answers whether the name is new.  A release issues one
drop for each name, the newest first, leaves the arena empty and fails with the first
failure among its drops, and so, but for the failure, does the end of the arena.  Over the
whole lifetime the drops of the clean-ups are as many for each name as its registrations. -/
theorem arena_lifetime (start : World σ) (hstart : start.arena = Arena.empty)
    (steps : List ArenaStep) :
    let w := afterSteps b steps start
    let names := pendingNames steps
    w.arena.names.Nodup ∧
    (∀ name, w.arena.registered.contains name = true ↔ name ∈ w.arena.names) ∧
    w.arena.names = names.reverse ∧
    (∀ count, (dropTables b count none w).2.arena.Consistent) ∧
    (∀ name, (w.arena.register name).1 = true ↔ name ∉ names) ∧
    (∃ drops, CleansUp names drops w ((release b).within w).2 ∧
      ((release b).within w).1 =
        match firstFailure drops with
        | some e => .error e
        | none => .ok ()) ∧
    (∃ drops, CleansUp names drops w ((discard b : Run σ StoreError Unit).within w).2) ∧
    ((cleanups b steps start).map (·.statement)).Perm ((registrations [] steps).map .drop) := by
  intro w names
  have hempty : start.arena.Holds [] := hstart ▸ Arena.holds_empty
  have hw : w.arena.Holds names := holds_afterSteps b steps hempty
  refine ⟨hw.consistent.nodup, hw.consistent.contains, hw.names_eq, ?_, ?_, ?_, ?_, ?_⟩
  · intro count
    exact dropTables_consistent b count none hw.consistent
  · intro name
    exact hw.register_fst
  · exact release_cleans_up b hw
  · exact discard_cleans_up b hw
  · exact cleanups_perm b steps hempty

end Runs

/-- The creation of a table fails, and so does a drop; after the release one of the names
is registered again. -/
theorem arena_lifetime_failing :
    let b := Replay.backend .sqlite
    let select := Selection.verbatim (.raw "SELECT 1")
    let start := World.start { failingCommands := [1, 2] }
    let steps := [.fill "s" select, .register "t", .fill "s" select, .clear, .fill "t" select]
    start.arena = Arena.empty ∧
      (afterSteps b steps start).arena.names = ["t"] ∧
      ((cleanups b steps start).map (·.statement)).Perm [.drop "s", .drop "t", .drop "t"] := by
  intro b select start steps
  have hlaw := arena_lifetime b start rfl steps
  exact ⟨rfl, hlaw.2.2.1, hlaw.2.2.2.2.2.2.2⟩

end DocSearch
