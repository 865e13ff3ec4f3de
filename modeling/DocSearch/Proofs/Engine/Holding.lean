import DocSearch.Proofs.Engine.Failures

/-!
# Tables that a search holds

The statements of a search tell which tables it has still to drop: those that it has tried
to create and has not dropped since.  While it walks, all of them are registered, and the
clean-up drops whatever is registered.  So in the end it holds none, whatever has failed on
the way and whoever else has used the database in the meantime.

## Main definitions

* `isHeld` — whether a table has been created and not dropped since.
* `IsTemporaryName` — the names of the temporary tables of searches.
* `World.Tracks` — what is held is registered.

## Main results

* `runRequest_tracks` — a request keeps what it holds registered.
* `search_holds_nothing` — a search that has ended holds no table.
-/

namespace DocSearch

/-! ### What statements hold -/

/-- Whether statements, the latest first, have tried to create a table and have not dropped
it since. -/
def isHeld (name : String) : List Statement → Bool
  | [] => false
  | .drop table :: earlier => table != name && isHeld name earlier
  | .create table _ :: earlier => table == name || isHeld name earlier
  | _ :: earlier => isHeld name earlier

theorem isHeld_drop {name table : String} {earlier : List Statement} :
    isHeld name (.drop table :: earlier) = true ↔ table ≠ name ∧ isHeld name earlier = true := by
  rw [isHeld, Bool.and_eq_true, bne_iff_ne]

theorem isHeld_create {name table : String} {selection : Selection} {earlier : List Statement} :
    isHeld name (.create table selection :: earlier) = true ↔
      table = name ∨ isHeld name earlier = true := by
  rw [isHeld, Bool.or_eq_true, beq_iff_eq]

theorem isHeld_read {s : Statement} (hs : s.isCommand = false) (name : String)
    (earlier : List Statement) : isHeld name (s :: earlier) = isHeld name earlier := by
  cases s with
  | drop table => cases hs
  | create table selection => cases hs
  | _ => rfl

/-- A table is held until it is dropped. -/
theorem isHeld_cons {name : String} {s : Statement} {earlier : List Statement}
    (hs : s ≠ .drop name) (hheld : isHeld name earlier = true) : isHeld name (s :: earlier) = true := by
  cases s with
  | drop table => exact isHeld_drop.mpr ⟨fun h => hs (h ▸ rfl), hheld⟩
  | create table selection => exact isHeld_create.mpr (.inr hheld)
  | _ => exact hheld

/-- The names of the temporary tables of searches. -/
def IsTemporaryName (name : String) : Prop := tempTablePrefix.toList <+: name.toList

theorem isTemporaryName_tempTableName (parts : List String) : IsTemporaryName (tempTableName parts) := by
  rw [IsTemporaryName, tempTableName, String.toList_append]
  exact List.prefix_append _ _

/-- The table that a statement drops or creates. -/
def Statement.commanded? : Statement → Option String
  | .drop name | .create name _ => some name
  | _ => none

theorem Statement.commanded?_of_read {s : Statement} (hs : s.isCommand = false) :
    s.commanded? = none := by
  cases s with
  | drop table => cases hs
  | create table selection => cases hs
  | _ => rfl

/-! ### What is held is registered -/

variable {σ : Type} {b : Backend σ}

/-- The tables that are held are registered, and only temporary tables are registered,
dropped and created. -/
structure World.Tracks (w : World σ) : Prop where
  held : ∀ name, isHeld name (w.log.map (·.statement)) = true → name ∈ w.arena.names
  registered : ∀ name ∈ w.arena.names, IsTemporaryName name
  commanded : ∀ i ∈ w.log, ∀ name ∈ i.statement.commanded?, IsTemporaryName name

namespace World.Tracks

variable {w : World σ}

theorem start (state : σ) (scope : Source) : Tracks { state, scope } :=
  ⟨fun _ h => (nomatch h), fun _ h => (nomatch h), fun _ h => nomatch h⟩

theorem enter (hw : w.Tracks) (scope : Source) : { w with scope }.Tracks :=
  ⟨hw.held, hw.registered, hw.commanded⟩

theorem read (hw : w.Tracks) {s : Statement} (hs : s.isCommand = false) :
    ((issue b s).within w).2.Tracks := by
  obtain ⟨answer, state, h⟩ := exists_issue b s w
  rw [h]
  refine ⟨fun name hheld => ?_, hw.registered, ?_⟩
  · rw [List.map_cons, isHeld_read hs] at hheld
    exact hw.held name hheld
  · refine List.forall_mem_cons.mpr ⟨fun name hname => ?_, hw.commanded⟩
    rw [Statement.commanded?_of_read hs] at hname
    cases hname

/-- A name is registered before a table of this name is dropped or created. -/
theorem materialize (hw : w.Tracks) (parts : List String) (selection : Selection) :
    ((materialize b (tempTableName parts) selection).within w).2.Tracks := by
  have htemporary := isTemporaryName_tempTableName parts
  -- the digest in the name is not to be computed
  generalize tempTableName parts = name at htemporary ⊢
  have hnames : ∀ other ∈ name :: w.arena.names, IsTemporaryName other :=
    List.forall_mem_cons.mpr ⟨htemporary, hw.registered⟩
  have hcommanded : ∀ other ∈ some name, IsTemporaryName other := by
    rintro other ⟨⟩
    exact htemporary
  rcases materialize_cases b name selection w with
    ⟨-, h⟩ | ⟨hfresh, state, e, h⟩ | ⟨hfresh, state, failure, h⟩
  · rw [h]
    exact hw
  · rw [h]
    refine ⟨fun other hheld => ?_, ?_, List.forall_mem_cons.mpr ⟨hcommanded, hw.commanded⟩⟩
    · rw [World.names_registering hfresh]
      exact List.mem_cons_of_mem _ (hw.held other (isHeld_drop.mp hheld).2)
    · rw [World.names_registering hfresh]
      exact hnames
  · rw [h]
    refine ⟨fun other hheld => ?_, ?_, List.forall_mem_cons.mpr
      ⟨hcommanded, List.forall_mem_cons.mpr ⟨hcommanded, hw.commanded⟩⟩⟩
    · rw [World.names_registering hfresh]
      rcases isHeld_create.mp hheld with rfl | hheld
      · exact List.mem_cons_self
      · exact List.mem_cons_of_mem _ (hw.held other (isHeld_drop.mp hheld).2)
    · rw [World.names_registering hfresh]
      exact hnames

/-- A name that is taken out is that of a table that is dropped next. -/
theorem drop (hw : w.Tracks) {name : String} {arena : Arena}
    (hpop : w.arena.pop? = some (name, arena)) :
    ((issue b (.drop name)).within { w with arena }).2.Tracks := by
  rw [Arena.pop?] at hpop
  cases hnames : w.arena.names with
  | nil =>
    rw [hnames] at hpop
    cases hpop
  | cons newest others =>
    rw [hnames] at hpop
    cases hpop
    have hregistered := hw.registered
    rw [hnames, List.forall_mem_cons] at hregistered
    refine ⟨fun other hheld => ?_, hregistered.2, ?_⟩
    · obtain ⟨hne, hheld⟩ := isHeld_drop.mp hheld
      have hmem := hw.held other hheld
      rw [hnames] at hmem
      exact (List.mem_cons.mp hmem).resolve_left hne.symm
    · refine List.forall_mem_cons.mpr ⟨?_, hw.commanded⟩
      rintro other ⟨⟩
      exact hregistered.1

end World.Tracks

/-- The steps of a walk keep what they hold registered. -/
theorem tracks_invariant : WalkInvariant b World.Tracks where
  read := fun hs hw => hw.read hs.isCommand
  fill := fun parts _ hw => hw.materialize parts _
  enter := fun _ hw => hw.enter _
  leave := fun _ hafter => hafter.enter _

open Run

theorem runRequest_tracks (c : SearchContext) (r : Request) :
    Keeps World.Tracks (runRequest b c r) :=
  runRequest_keeps tracks_invariant (fun hpop hw => hw.drop hpop) fun _ _ hw => hw.enter _

/-! ### Searches -/

/-- Fetching hits keeps what statements that read keep. -/
theorem fetchHits_keeps {I : World σ → Prop}
    (hread : ∀ {w : World σ} {s : Statement}, s.isCommand = false → I w →
      I ((issue b s).within w).2)
    (c : SearchContext) (condition : Option Condition) (sort : List SortClause)
    (size offset : Int64) : Keeps I (fetchHits b c condition sort size offset) := by
  have hissue : ∀ s : Statement, s.isCommand = false → Keeps I (issue b s) :=
    fun s hs w => ⟨rfl, hread hs⟩
  rw [fetchHits]
  refine Keeps.bind (hissue _ rfl) fun rows => ?_
  split
  · exact Keeps.pure _
  · refine Keeps.bind (hissue _ rfl) fun page => ?_
    exact Keeps.bind (Keeps.lift _) fun hits => Keeps.pure _

theorem finish_keeps {I : World σ → Prop}
    (hread : ∀ {w : World σ} {s : Statement}, s.isCommand = false → I w →
      I ((issue b s).within w).2)
    (c : SearchContext) (call : SearchCall) (r : Request) (found : Outcome) :
    Keeps I (finish b c call r found) := by
  refine Keeps.bind checkCancelled_keeps fun _ => ?_
  refine Keeps.bind (fun w => ?_) fun hits => Keeps.pure _
  exact KeepsAt.mapError (fetchHits_keeps hread c found.condition r.sort _ _ w)

/-- What a search that has ended leaves behind: no registered table. -/
structure World.Ended (w : World σ) : Prop where
  tracks : w.Tracks
  names : w.arena.names = []

theorem World.Ended.read {w : World σ} (hw : w.Ended) {s : Statement} (hs : s.isCommand = false) :
    ((issue b s).within w).2.Ended := by
  obtain ⟨answer, state, h⟩ := exists_issue b s w
  refine ⟨hw.tracks.read hs, ?_⟩
  rw [h]
  exact hw.names

theorem runRequest_ended (c : SearchContext) (r : Request) {w : World σ} (hw : w.Tracks)
    (harena : w.arena = Arena.empty) : ((runRequest b c r).within w).2.Ended := by
  have hwalked : (walkEnd b c r w).scope = w.scope ∧ WalkedSince w.log (walkEnd b c r w) :=
    walkEnd_keeps (walked_invariant w.log) (fun _ _ h => h) (WalkedSince.of_empty harena)
  exact ⟨(runRequest_tracks c r w).2 hw, (runRequest_released b c r harena hwalked.2.1).names⟩

/-- A search leaves no table registered, wherever it ends. -/
theorem search_ended (b : Backend σ) (mappings : Mappings) (options : RequestOptions)
    (call : SearchCall) (state : σ) :
    ((search b mappings options call).within (World.start state)).2.Ended := by
  have hstart : (World.start state).Tracks := .start state _
  cases hr : readRequest options call.body with
  | error e =>
    rw [search_within_of_unread hr]
    exact ⟨hstart, rfl⟩
  | ok r =>
    cases htargets : ((resolveTargets b call.indices).within (World.start state)).1 with
    | error e =>
      rw [search_within_of_unresolved hr htargets]
      exact ⟨hstart, rfl⟩
    | ok targets =>
      rw [search_within hr htargets]
      -- the request ends with its clean-up, and what comes after it registers nothing
      have hended := runRequest_ended (b := b) ⟨targets, call.types, mappings, r.source⟩ r
        (hstart.enter (.documents targets call.types none)) rfl
      cases hwithin : (runRequest b ⟨targets, call.types, mappings, r.source⟩ r).within
          { World.start state with scope := .documents targets call.types none } with
      | mk result after =>
        rw [hwithin] at hended
        have hleft : World.Ended { after with scope := (World.start state).scope } :=
          ⟨hended.tracks.enter _, hended.names⟩
        cases result with
        | error e => exact hleft
        | ok found =>
          exact (finish_keeps (I := World.Ended) (fun hs hw => hw.read hs) _ call r found _).2 hleft

/-- **A search that has ended holds no table**, whatever the database has answered. -/
theorem search_holds_nothing (b : Backend σ) (mappings : Mappings) (options : RequestOptions)
    (call : SearchCall) (state : σ) (name : String) :
    isHeld name (((search b mappings options call).within (World.start state)).2.log.map
      (·.statement)) = false := by
  have hended := search_ended b mappings options call state
  rw [← Bool.not_eq_true]
  intro hheld
  have hmem := hended.tracks.held name hheld
  rw [hended.names] at hmem
  cases hmem

end DocSearch
