import DocSearch.Engine.Replay
import DocSearch.Proofs.Engine.Walk

/-!
# Temporary tables are dropped

A walk registers the name of a temporary table, drops a table of this name that may be
left over, and creates it.  Whatever stops the walk, the clean-up behind it drops the
registered tables, the newest first, and goes on past failures.  So the log of a
request is that of the walk, in which each table is created at most once and directly
after its name was dropped, followed by one drop for each table that was registered.

## Main definitions

* `Walked` — the logs that walks leave, with the names they register.
* `Arena.Consistent` — the two ways in which an arena holds its names agree.
* `WalkedSince` — a world whose log goes on in this way.

## Main results

* `walked_invariant` — the steps of a walk extend its log in the way of `Walked`.
* `dropTables_released` — what the clean-up issues and leaves behind.
* `runRequest_cleans_up` — no request leaves a temporary table registered.
-/

namespace DocSearch

/-! ### Arenas -/

namespace Arena

/-- The names in order and the names to look up are the same, each held once. -/
structure Consistent (a : Arena) : Prop where
  nodup : a.names.Nodup
  contains : ∀ name, a.registered.contains name = true ↔ name ∈ a.names

theorem consistent_empty : Consistent Arena.empty := by
  refine ⟨List.nodup_nil, fun name => ?_⟩
  simp [Arena.empty]

theorem notMem_names {a : Arena} (ha : a.Consistent) {name : String}
    (hname : a.registered.contains name = false) : name ∉ a.names := by
  rw [← ha.contains, hname]
  simp

theorem contains_eq_false {a : Arena} (ha : a.Consistent) {name : String} (hname : name ∉ a.names) :
    a.registered.contains name = false := by
  rw [← Bool.not_eq_true, ha.contains]
  exact hname

theorem register_of_fresh {a : Arena} {name : String} (hname : a.registered.contains name = false) :
    (a.register name).2 = ⟨name :: a.names, a.registered.insert name⟩ := by
  simp [register, hname]

theorem Consistent.register {a : Arena} (ha : a.Consistent) {name : String}
    (hname : a.registered.contains name = false) : (a.register name).2.Consistent := by
  rw [register_of_fresh hname]
  refine ⟨List.nodup_cons.mpr ⟨notMem_names ha hname, ha.nodup⟩, fun other => ?_⟩
  rw [Std.HashSet.contains_insert, Bool.or_eq_true, ha.contains, List.mem_cons, beq_iff_eq]
  exact or_congr_left eq_comm

/-- Taking the newest name out leaves the others. -/
theorem Consistent.pop {a : Arena} (ha : a.Consistent) {name : String} {names : List String}
    (hnames : a.names = name :: names) : Consistent ⟨names, a.registered.erase name⟩ := by
  have hnodup := ha.nodup
  rw [hnames, List.nodup_cons] at hnodup
  refine ⟨hnodup.2, fun other => ?_⟩
  rw [Std.HashSet.contains_erase, Bool.and_eq_true, ha.contains, hnames, List.mem_cons]
  simp only [Bool.not_eq_true', beq_eq_false_iff_ne, ne_eq]
  constructor
  · rintro ⟨hne, rfl | hmem⟩
    · exact absurd rfl hne
    · exact hmem
  · intro hmem
    refine ⟨?_, .inr hmem⟩
    rintro rfl
    exact hnodup.1 hmem

end Arena

theorem World.names_registering {σ : Type} {w : World σ} {name : String}
    (hname : w.arena.registered.contains name = false) :
    (w.registering name).arena.names = name :: w.arena.names :=
  congrArg Arena.names (Arena.register_of_fresh hname)

/-! ### Logs of walks -/

/-- The table that a statement drops. -/
def Issued.dropped? (i : Issued) : Option String :=
  match i.statement with
  | .drop name => some name
  | _ => none

/-- The table that a statement creates. -/
def Issued.created? (i : Issued) : Option String :=
  match i.statement with
  | .create name _ => some name
  | _ => none

/-- A log, the latest statement first, that a walk may leave when it has registered some
names, the newest first. -/
inductive Walked : List Issued → List String → Prop where
  /-- Nothing was done. -/
  | start : Walked [] []
  /-- A statement that reads. -/
  | read {log : List Issued} {names : List String} {s : Statement} (failure : Option StoreError)
    (hs : s.isCommand = false) (h : Walked log names) : Walked (⟨s, failure⟩ :: log) names
  /-- A name was registered, and dropping the table that may be left over failed. -/
  | dropped {log : List Issued} {names : List String} {name : String} (e : StoreError)
    (hname : name ∉ names) (h : Walked log names) :
    Walked (⟨.drop name, some e⟩ :: log) (name :: names)
  /-- A name was registered and its table created, or so it was tried. -/
  | created {log : List Issued} {names : List String} {name : String} (selection : Selection)
    (failure : Option StoreError) (hname : name ∉ names) (h : Walked log names) :
    Walked (⟨.create name selection, failure⟩ :: ⟨.drop name, none⟩ :: log) (name :: names)

namespace Walked

variable {log : List Issued} {names : List String}

/-- A walk drops each name when it registers it, and at no other time. -/
theorem filterMap_dropped? (h : Walked log names) : log.filterMap Issued.dropped? = names := by
  induction h with
  | start => rfl
  | @read log names s failure hs _ ih =>
    cases s with
    | drop table => cases hs
    | create table selection => cases hs
    | _ => exact ih
  | dropped e hname _ ih => rw [List.filterMap_cons, ih]; rfl
  | created selection failure hname _ ih => rw [List.filterMap_cons, List.filterMap_cons, ih]; rfl

theorem filterMap_created?_sublist (h : Walked log names) :
    (log.filterMap Issued.created?).Sublist names := by
  induction h with
  | start => exact .slnil
  | @read log names s failure hs _ ih =>
    cases s with
    | drop table => cases hs
    | create table selection => cases hs
    | _ => exact ih
  | dropped e hname _ ih => exact .cons _ ih
  | created selection failure hname _ ih => exact .cons_cons _ ih

/-- What is created was dropped directly before. -/
theorem drop_before_create (h : Walked log names) {later earlier : List Issued} {i : Issued}
    (hlog : log = later ++ i :: earlier) {name : String} {selection : Selection}
    (hi : i.statement = .create name selection) :
    ∃ d rest, earlier = d :: rest ∧ d.statement = .drop name := by
  induction h generalizing later with
  | start => simp at hlog
  | read failure hs _ ih =>
    cases later with
    | nil =>
      cases hlog
      cases hi
      cases hs
    | cons _ later =>
      cases hlog
      exact ih rfl
  | dropped e hname _ ih =>
    cases later with
    | nil =>
      cases hlog
      cases hi
    | cons _ later =>
      cases hlog
      exact ih rfl
  | @created log names table selection' failure hname _ ih =>
    cases later with
    | nil =>
      cases hlog
      cases hi
      exact ⟨⟨.drop _, none⟩, log, rfl, rfl⟩
    | cons _ later =>
      -- the statement before a creation is a drop and creates nothing
      cases later with
      | nil =>
        cases hlog
        cases hi
      | cons _ later =>
        cases hlog
        exact ih rfl

end Walked

/-! ### The walk -/

variable {σ : Type} {b : Backend σ}

/-- The log of a world goes on from an earlier one in the way of walks, and the names of
its arena are those that were registered. -/
def WalkedSince (start : List Issued) (w : World σ) : Prop :=
  w.arena.Consistent ∧ ∃ log, w.log = log ++ start ∧ Walked log w.arena.names

theorem WalkRead.isCommand {scope : Source} {s : Statement} (hs : WalkRead scope s) :
    s.isCommand = false := by
  cases hs <;> rfl

/-- Materializing a table goes on in the way of walks. -/
theorem materialize_walkedSince {start : List Issued} {w : World σ} (name : String)
    (selection : Selection) (hw : WalkedSince start w) :
    WalkedSince start ((materialize b name selection).within w).2 := by
  obtain ⟨hconsistent, log, hlog, hwalked⟩ := hw
  rcases materialize_cases b name selection w with
    ⟨-, h⟩ | ⟨hfresh, state, e, h⟩ | ⟨hfresh, state, failure, h⟩
  · rw [h]
    exact ⟨hconsistent, log, hlog, hwalked⟩
  · rw [h]
    have hname := Arena.notMem_names hconsistent hfresh
    refine ⟨hconsistent.register hfresh, ⟨.drop name, some e⟩ :: log, ?_, ?_⟩
    · rw [hlog]
      rfl
    · show Walked _ (w.arena.register name).2.names
      rw [Arena.register_of_fresh hfresh]
      exact hwalked.dropped e hname
  · rw [h]
    have hname := Arena.notMem_names hconsistent hfresh
    refine ⟨hconsistent.register hfresh,
      ⟨.create name selection, failure⟩ :: ⟨.drop name, none⟩ :: log, ?_, ?_⟩
    · rw [hlog]
      rfl
    · show Walked _ (w.arena.register name).2.names
      rw [Arena.register_of_fresh hfresh]
      exact hwalked.created selection failure hname

/-- **The steps of a walk extend its log in the way of walks.** -/
theorem walked_invariant (start : List Issued) : WalkInvariant b (WalkedSince start) where
  read := by
    intro w s hs hw
    obtain ⟨hconsistent, log, hlog, hwalked⟩ := hw
    obtain ⟨answer, state, h⟩ := exists_issue b s w
    rw [h]
    refine ⟨hconsistent, ⟨s, failureOf answer⟩ :: log, ?_, hwalked.read _ hs.isCommand⟩
    rw [hlog]
    rfl
  fill := fun parts _ hw => materialize_walkedSince (tempTableName parts) _ hw
  enter := fun _ hw => hw
  leave := fun _ hafter => hafter

/-! ### The clean-up -/

/-- A world after tables were dropped: no name is left, and the tables were dropped in
the given order. -/
structure Released (tables : List String) (w after : World σ) : Prop where
  names : after.arena.names = []
  consistent : after.arena.Consistent
  scope : after.scope = w.scope
  log : ∃ drops : List Issued, after.log = drops.reverse ++ w.log ∧
    drops.map (·.statement) = tables.map .drop

theorem dropTables_cons (b : Backend σ) {w : World σ} {name : String} {names : List String}
    (hnames : w.arena.names = name :: names) (count : Nat) (first : Option StoreError) :
    ∃ answer state, (dropTables b (count + 1) first w) =
      dropTables b count (first.or (failureOf answer))
        { w with
          state
          arena := ⟨names, w.arena.registered.erase name⟩
          log := ⟨.drop name, failureOf answer⟩ :: w.log } := by
  have hpop : w.arena.pop? = some (name, ⟨names, w.arena.registered.erase name⟩) := by
    rw [Arena.pop?, hnames]
  obtain ⟨answer, state, hissue⟩ := exists_issue b (.drop name)
    { w with arena := ⟨names, w.arena.registered.erase name⟩ }
  refine ⟨answer, state, ?_⟩
  rw [dropTables]
  simp only [hpop, hissue]
  cases answer <;> rfl

/-- **What the clean-up does.**  It drops each registered table, the newest first, and
leaves no name behind, whatever fails. -/
theorem dropTables_released (b : Backend σ) {names : List String} {w : World σ}
    (first : Option StoreError) (hw : w.arena.Consistent) (hnames : w.arena.names = names) :
    Released names w (dropTables b names.length first w).2 := by
  induction names generalizing first w with
  | nil => exact ⟨hnames, hw, rfl, [], rfl, rfl⟩
  | cons name names ih =>
    obtain ⟨answer, state, hdrop⟩ := dropTables_cons b hnames names.length first
    rw [List.length_cons, hdrop]
    obtain ⟨hempty, hconsistent, hscope, drops, hlog, hdrops⟩ := ih
      (w := { w with
        state
        arena := ⟨names, w.arena.registered.erase name⟩
        log := ⟨.drop name, failureOf answer⟩ :: w.log })
      (first.or (failureOf answer)) (hw.pop hnames) rfl
    refine ⟨hempty, hconsistent, hscope, ⟨.drop name, failureOf answer⟩ :: drops, ?_, ?_⟩
    · rw [hlog, List.reverse_cons, List.append_assoc]
      rfl
    · rw [List.map_cons, List.map_cons, hdrops]

/-- What follows a walk and the clean-up behind it touches the world no more, whichever of them
has failed. -/
theorem captured_world {α β : Type} (walk : Run σ ExecutionError α) (clean : Run σ StoreError Unit)
    (finish : α → β) (w : World σ) :
    ((do
      let walked ← walk.capture
      let cleaned ← clean.capture
      let results ← Run.lift (walked : Except ExecutionError _)
      Run.lift (cleaned.mapError .aggregation)
      return finish results : Run σ ExecutionError β).within w).2 =
      (clean.within (walk.within w).2).2 := by
  rw [Run.within_bind, Run.within_capture]
  simp only
  rw [Run.within_bind, Run.within_capture]
  simp only
  cases (walk.within w).1 with
  | error e => rfl
  | ok results =>
    rw [Run.within_bind, Run.within_lift]
    simp only
    rw [Run.within_bind, Run.within_lift]
    cases (clean.within _).1 <;> rfl

/-- A request that compiles ends with the world that the clean-up leaves behind. -/
theorem runRequest_world (b : Backend σ) (c : SearchContext) {r : Request} (w : World σ)
    {condition : Option Condition} (hr : r.predicate.compile = .ok condition) :
    ((runRequest b c r).within w).2 = ((release b).within (walkEnd b c r w)).2 := by
  have hwalk : walkEnd b c r w = ((withScope (.documents c.targets c.types condition)
      (Aggregations.execute b c r.aggregations)).within w).2 := by
    rw [walkEnd, hr]
  rw [hwalk, runRequest, Run.within_bind, hr]
  simp only [Steps.mapError_ok, Run.within_lift]
  exact captured_world _ (release b) _ w

theorem runRequest_world_of_error (b : Backend σ) (c : SearchContext) {r : Request} (w : World σ)
    {e : QueryError} (hr : r.predicate.compile = .error e) :
    ((runRequest b c r).within w).2 = w := by
  rw [runRequest, Run.within_bind, hr]
  rfl

/-- The clean-up of a request drops what its walk has registered. -/
theorem runRequest_released (b : Backend σ) (c : SearchContext) (r : Request) {w : World σ}
    (hw : w.arena = Arena.empty) (hwalked : (walkEnd b c r w).arena.Consistent) :
    Released (walkEnd b c r w).arena.names (walkEnd b c r w) ((runRequest b c r).within w).2 := by
  cases hr : r.predicate.compile with
  | ok condition =>
    rw [runRequest_world b c w hr]
    exact dropTables_released b none hwalked rfl
  | error e =>
    have hwalk : walkEnd b c r w = w := by rw [walkEnd, hr]
    rw [runRequest_world_of_error b c w hr, hwalk, hw]
    exact ⟨by rw [hw]; rfl, by rw [hw]; exact Arena.consistent_empty, rfl, [], rfl, rfl⟩

/-! ### Requests -/

theorem WalkedSince.of_empty {w : World σ} (hw : w.arena = Arena.empty) :
    WalkedSince w.log w := by
  rw [WalkedSince, hw]
  exact ⟨Arena.consistent_empty, [], rfl, .start⟩

/-- A list of statements, the earliest first, in which each table that is created was
dropped directly before. -/
def DropsBeforeCreating (trace : List Issued) : Prop :=
  ∀ before i after name selection, trace = before ++ i :: after →
    i.statement = .create name selection →
      ∃ rest d, before = rest ++ [d] ∧ d.statement = .drop name

theorem exists_drop_of_mem {drops : List Issued} {tables : List String}
    (hdrops : drops.map (·.statement) = tables.map .drop) {i : Issued} (hi : i ∈ drops) :
    ∃ table, i.statement = .drop table := by
  have hstatement : i.statement ∈ tables.map Statement.drop := by
    rw [← hdrops]
    exact List.mem_map_of_mem hi
  obtain ⟨table, -, htable⟩ := List.mem_map.mp hstatement
  exact ⟨table, htable.symm⟩

theorem Walked.dropsBeforeCreating {log drops : List Issued} {names tables : List String}
    (h : Walked log names) (hdrops : drops.map (·.statement) = tables.map .drop) :
    DropsBeforeCreating (log.reverse ++ drops) := by
  intro before i after name selection htrace hi
  have hnot : i ∉ drops := by
    intro hmem
    obtain ⟨table, htable⟩ := exists_drop_of_mem hdrops hmem
    rw [hi] at htable
    cases htable
  -- the creation is in the log of the walk, since the clean-up only drops
  rcases List.append_eq_append_iff.mp htrace with ⟨more, -, hmore⟩ | ⟨more, hlog, hmore⟩
  · exact absurd (by rw [hmore]; simp) hnot
  · cases more with
    | nil => exact absurd (by rw [List.nil_append] at hmore; rw [← hmore]; simp) hnot
    | cons j more =>
      cases hmore
      have hreverse : log = more.reverse ++ i :: before.reverse := by
        rw [← List.reverse_reverse log, hlog]
        simp
      obtain ⟨d, rest, hbefore, hd⟩ := h.drop_before_create hreverse hi
      refine ⟨rest.reverse, d, ?_, hd⟩
      rw [← List.reverse_reverse before, hbefore, List.reverse_cons]

/-- **No request leaves a temporary table behind.**  From a world without temporary
tables, and whatever fails on the way: no name stays registered, and the source in scope
is that of before.  The trace is that of the walk and that of the clean-up; each table
that is created was dropped directly before, no table is created twice, the walk drops
each name once, when it is registered, and the clean-up drops these names once more, the
newest first. -/
theorem runRequest_cleans_up (b : Backend σ) (c : SearchContext) (r : Request) (w : World σ)
    (hw : w.arena = Arena.empty) :
    ((runRequest b c r).within w).2.arena.names = [] ∧
    (∀ name, ((runRequest b c r).within w).2.arena.registered.contains name = false) ∧
    ((runRequest b c r).within w).2.scope = w.scope ∧
    ∃ walk cleanup : List Issued,
      (walkEnd b c r w).log = walk.reverse ++ w.log ∧
      ((runRequest b c r).within w).2.log = (walk ++ cleanup).reverse ++ w.log ∧
      DropsBeforeCreating (walk ++ cleanup) ∧
      ((walk ++ cleanup).filterMap Issued.created?).Nodup ∧
      (walkEnd b c r w).arena.names.Nodup ∧
      walk.filterMap Issued.dropped? = (walkEnd b c r w).arena.names.reverse ∧
      cleanup.map (·.statement) = (walkEnd b c r w).arena.names.map .drop := by
  have hkeeps : (walkEnd b c r w).scope = w.scope ∧ WalkedSince w.log (walkEnd b c r w) :=
    walkEnd_keeps (walked_invariant w.log) (fun _ _ h => h) (WalkedSince.of_empty hw)
  obtain ⟨hscope, hconsistent, log, hlog, hwalked⟩ := hkeeps
  obtain ⟨hnames, hafter, hscope', drops, hlog', hdrops⟩ := runRequest_released b c r hw hconsistent
  -- the trace is the log of the walk, turned around, and the drops behind it
  refine ⟨hnames, fun name => ?_, hscope'.trans hscope, log.reverse, drops, ?_, ?_, ?_, ?_,
    hconsistent.nodup, ?_, hdrops⟩
  · have hmem : name ∉ ((runRequest b c r).within w).2.arena.names := by
      rw [hnames]
      simp
    rw [← hafter.contains] at hmem
    simpa using hmem
  · rw [List.reverse_reverse, hlog]
  · rw [hlog', hlog, List.reverse_append, List.reverse_reverse, List.append_assoc]
  · exact hwalked.dropsBeforeCreating hdrops
  · -- the clean-up creates nothing
    have hnone : drops.filterMap Issued.created? = [] := by
      rw [List.filterMap_eq_nil_iff]
      intro i hi
      obtain ⟨table, htable⟩ := exists_drop_of_mem hdrops hi
      rw [Issued.created?, htable]
    rw [List.filterMap_append, hnone, List.append_nil, List.filterMap_reverse,
      (List.reverse_perm _).nodup_iff]
    exact hconsistent.nodup.sublist hwalked.filterMap_created?_sublist
  · rw [List.filterMap_reverse, hwalked.filterMap_dropped?]

/-- A histogram of histograms over a database that fails to create the second table and
is cancelled on the way. -/
theorem runRequest_cleans_up_cancelled :
    let days := Aggregation.dateHistogram "at" .day none [("n", .metric .valueCount "n")]
    let years := Aggregation.dateHistogram "at" .year none [("days", days)]
    let r : Request := ⟨.matchAll, [("years", years)], 0, 10, [], "body"⟩
    let c : SearchContext :=
      ⟨[⟨"p", "sift_idx_p"⟩], [], Mappings.empty.put "p" none "at" .date, "body"⟩
    let script : Replay :=
      { replies := [.ok [[.integer 0]]], failingCommands := [3], cancelAt := some 4 }
    ((runRequest (Replay.backend .sqlite) c r).within (World.start script)).2.arena.names = [] :=
  (runRequest_cleans_up _ _ _ _ rfl).1

end DocSearch
