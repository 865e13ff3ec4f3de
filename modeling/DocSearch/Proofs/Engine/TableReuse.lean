import DocSearch.Proofs.Engine.Naming
import DocSearch.Proofs.Engine.Provenance
import DocSearch.Proofs.Engine.Reuse
import DocSearch.Proofs.Engine.TableCalls

/-!
# Reusing temporary tables

A call for a table whose name is registered does nothing, so it has to ask for what the table
was filled with.  The parts of a name tell what it asks for: the rows of one bucket by two
parts, the rows of a source with their buckets by five.  In one walk the documents are always
the same, so the text of a source tells its values as well.

## Main definitions

* `WalkCall` — the calls that a walk may make.
* `FillProgress` — the steps of a walk that fills its tables in some way keep an invariant.
* `SoundCalls` — the calls of a walk find what was created before, and all that is created is
  asked for by one of them.
* `DigestsApart` — different parts have different digests.

## Main results

* `WalkCall.render_eq` — **the parts of a name determine the selection.**
* `tableCalls_reuse` — **a call that finds its name registered finds the table that it asks for.**
-/

namespace DocSearch

open Run

variable {σ : Type}

/-! ### Parts determine selections -/

/-- A walk reads the documents that it starts with, or a table. -/
def IsScope (base scope : Source) : Prop := scope = base ∨ ∃ name, scope = .table name

/-- The calls of a walk, by the parts of the name and by what fills the table. -/
inductive WalkCall (d : Dialect) (c : SearchContext) (base : Source) :
    List String → Selection → Prop where
  /-- The rows of a source with their buckets. -/
  | bucketed {scope : Source} {field : String} {interval : Interval} {key : BucketKey}
    (hscope : IsScope base scope) (hkey : bucketKey c field interval = .ok key) :
    WalkCall d c base (bucketedTableParts d c scope key) (.bucketed key scope)
  /-- The rows of one bucket. -/
  | bucket (bucketed : String) (key : Int64) :
    WalkCall d c base (bucketParts bucketed key) (.bucket bucketed key)

section Parts

variable {d : Dialect} {c : SearchContext} {targets : List Target} {types : List String}
  {filter : Option Condition}

/-- The text of a source tells its values: documents are always the same, and a table has
none. -/
theorem IsScope.render_eq {scope scope' : Source}
    (h : IsScope (.documents targets types filter) scope)
    (h' : IsScope (.documents targets types filter) scope')
    (hsql : (scope.render d).sql = (scope'.render d).sql) : scope.render d = scope'.render d := by
  rcases h with rfl | ⟨name, rfl⟩ <;> rcases h' with rfl | ⟨name', rfl⟩
  · rfl
  · exact absurd hsql (documents_sql_ne targets types filter name')
  · exact absurd hsql.symm (documents_sql_ne targets types filter name)
  · have hname : Sql.quoteIdent name = Sql.quoteIdent name' := hsql
    rw [quoteIdent_injective hname]

/-- **The parts of a name determine the selection**, up to its text and its values. -/
theorem WalkCall.render_eq {parts parts' : List String} {selection selection' : Selection}
    (h : WalkCall d c (.documents targets types filter) parts selection)
    (h' : WalkCall d c (.documents targets types filter) parts' selection')
    (hparts : parts = parts') : selection.render d = selection'.render d := by
  cases h with
  | bucketed hscope hkey =>
    cases h' with
    | bucketed hscope' hkey' =>
      simp only [bucketedTableParts, List.cons.injEq, and_true] at hparts
      obtain ⟨-, hsql, -, hfield, hunit⟩ := hparts
      rw [bucketKey_eq hkey hkey' hfield (Interval.unit_injective hunit)]
      exact congrArg (Sql.Fragment.append _) (hscope.render_eq hscope' hsql)
    | bucket =>
      exact absurd (congrArg List.length hparts) (by simp [bucketedTableParts, bucketParts])
  | bucket bucketed key =>
    cases h' with
    | bucketed =>
      exact absurd (congrArg List.length hparts) (by simp [bucketedTableParts, bucketParts])
    | bucket bucketed' key' =>
      obtain ⟨rfl, rfl⟩ := bucketParts_inj hparts
      rfl

end Parts

/-! ### Walks that fill their tables in some way -/

/-- The steps of a walk that fills its tables in some way keep an invariant until one of them
fails. -/
structure FillProgress (fill : Fill σ) (b : Backend σ) (c : SearchContext) (base : Source)
    (I : Invariant σ) : Prop where
  /-- Statements that read. -/
  read : ∀ {w : World σ} {s : Statement}, I.Holds w → s.isCommand = false →
    Proceeds I w (issue b s)
  /-- Calls for tables. -/
  fill : ∀ {w : World σ} {parts : List String} {selection : Selection}, I.Holds w →
    WalkCall b.dialect c base parts selection → Proceeds I w (fill parts selection)

section Walks

variable {fill : Fill σ} {b : Backend σ} {c : SearchContext} {base : Source} {I : Invariant σ}
  {w : World σ}

theorem FillProgress.query (hI : FillProgress fill b c base I) (hw : I.Holds w) {s : Statement}
    (hread : s.isCommand = false) : Proceeds I w (query b s) :=
  (hI.read hw hread).mapError

theorem runBucketFilling_proceeds (hI : FillProgress fill b c base I) (hw : I.Holds w)
    (format : Option DateFormat) (bucketed : String)
    {children : Run σ ExecutionError (List (String × Json))}
    (hchildren : ∀ w : World σ, I.Holds w → IsScope base w.scope → Proceeds I w children)
    (key : Int64) : Proceeds I w (runBucketFilling fill b format bucketed children key) := by
  refine (checkCancelled_proceeds hw).bind fun _ _ _ hchecked _ _ => ?_
  refine (hI.fill hchecked (.bucket bucketed key)).mapError.bind fun _ _ _ hfilled _ _ => ?_
  refine (hI.query hfilled rfl).bind fun rows _ _ hsized _ _ => ?_
  refine Proceeds.bind (.withScope ?_) fun _ _ _ hafter _ _ => .pure _ hafter
  exact hchildren _ (I.holds_scope _ hsized) (.inr ⟨_, rfl⟩)

theorem bucketsFilling_proceeds (hI : FillProgress fill b c base I) (hw : I.Holds w)
    (hscope : IsScope base w.scope) {field : String} {interval : Interval} {key : BucketKey}
    (hkey : bucketKey c field interval = .ok key) (format : Option DateFormat)
    {children : Run σ ExecutionError (List (String × Json))}
    (hchildren : ∀ w : World σ, I.Holds w → IsScope base w.scope → Proceeds I w children) :
    Proceeds I w (bucketsFilling fill b c key format children) := by
  refine .read_bind ?_
  refine (hI.fill hw (.bucketed hscope hkey)).mapError.bind fun _ _ _ hfilled _ _ => ?_
  refine (hI.query hfilled rfl).bind fun rows _ _ hlisted _ _ => ?_
  exact .mapM hlisted fun k _ _ hafter _ _ =>
    runBucketFilling_proceeds hI hafter format _ hchildren k

mutual

/-- **A walk keeps what its steps keep**, until it fails. -/
theorem Aggregation.runFilling_proceeds (hI : FillProgress fill b c base I) :
    ∀ (a : Aggregation) (w : World σ), I.Holds w → IsScope base w.scope →
      Proceeds I w (Aggregation.runFilling fill b c a)
  | .metric m field, w, hw, _ => by
    rw [Aggregation.runFilling]
    refine (checkCancelled_proceeds hw).bind fun _ _ _ hchecked _ _ => .read_bind ?_
    exact (hI.query hchecked rfl).bind fun _ _ _ hafter _ _ => .pure _ hafter
  | .dateHistogram field interval format children, w, hw, hscope => by
    have hchildren := Aggregations.runFilling_proceeds hI children
    rw [Aggregation.runFilling]
    refine (checkCancelled_proceeds hw).bind fun _ checked _ hchecked hsame _ => ?_
    refine (Proceeds.of_world_eq rfl hchecked).bind fun key keyed hkeyed hholds hsame' _ => ?_
    have hkey : bucketKey c field interval = .ok key := (Prod.mk.inj hkeyed).1
    have hscope' : IsScope base keyed.scope := by
      rw [hsame', hsame]
      exact hscope
    split
    · refine Proceeds.bind (.read_bind ?_) fun _ _ _ hafter _ _ => .pure _ hafter
      exact (hI.query hholds rfl).bind fun _ _ _ hafter _ _ => .pure _ hafter
    · exact (bucketsFilling_proceeds hI hholds hscope' hkey format hchildren).bind
        fun _ _ _ hafter _ _ => .pure _ hafter

theorem Aggregations.runFilling_proceeds (hI : FillProgress fill b c base I) :
    ∀ (siblings : List (String × Aggregation)) (w : World σ), I.Holds w → IsScope base w.scope →
      Proceeds I w (Aggregations.runFilling fill b c siblings)
  | [], w, hw, _ => by
    rw [Aggregations.runFilling]
    exact .pure _ hw
  | (name, a) :: rest, w, hw, hscope => by
    rw [Aggregations.runFilling]
    refine (Aggregation.runFilling_proceeds hI a w hw hscope).bind fun _ w' _ hw' hsame _ => ?_
    refine (Aggregations.runFilling_proceeds hI rest w' hw' (hsame ▸ hscope)).bind ?_
    exact fun _ _ _ hafter _ _ => .pure _ hafter

end

/-- The walk of a request. -/
theorem walkFilling_proceeds (hI : FillProgress fill b c base I) (hw : I.Holds w)
    (siblings : Aggregations) : Proceeds I w (walkFilling fill b c siblings base) := by
  refine .withScope ((checkCancelled_proceeds (I.holds_scope base hw)).bind ?_)
  intro _ checked _ hchecked hsame _
  exact Aggregations.runFilling_proceeds hI siblings checked hchecked (.inl hsame)

end Walks

/-! ### Calls that find what was created -/

variable {b : Backend σ} {c : SearchContext} {base : Source} {start : World σ}

/-- A call is the latest one to have created its table. -/
def TableCall.IsLatest (call : TableCall σ) (log : List Issued) : Prop :=
  lastSuccess? call.name log = some ⟨.create call.name call.selection, none⟩

theorem TableCall.isLatest_cons (call : TableCall σ) (log : List Issued) :
    call.IsLatest (⟨.create call.name call.selection, none⟩ :: log) :=
  lastSuccess?_cons_self (by simp [Issued.concerns])

/-- A registered name was registered at the start, or it is that of the table that one of some
calls has created. -/
def Accounts (start : World σ) (calls : List (TableCall σ)) (name : String)
    (log : List Issued) : Prop :=
  start.arena.registered.contains name = true ∨
    ∃ call ∈ calls, call.name = name ∧ call.IsLatest log

/-- If a statement creates a table, one of some calls asks for it. -/
def Issued.AskedBy (calls : List (TableCall σ)) (i : Issued) : Prop :=
  ∀ name selection, i.statement = .create name selection →
    ∃ call ∈ calls, call.name = name ∧ call.selection = selection

/-- The calls of a walk and the statements that were issued by then. -/
structure SoundCalls (d : Dialect) (c : SearchContext) (base : Source) (start : World σ)
    (calls : List (TableCall σ)) (log : List Issued) : Prop where
  /-- Each call is one that a walk may make. -/
  walk : ∀ call ∈ calls, WalkCall d c base call.parts call.selection
  /-- A call that finds its name registered finds it accounted for. -/
  found : ∀ call ∈ calls, call.FindsRegistered → Accounts start calls call.name call.world.log
  /-- A table is created because of a call. -/
  asked : ∀ i ∈ log, i ∈ start.log ∨ i.AskedBy calls

/-- The calls of a walk are sound.  Until something fails, all registered names are accounted
for. -/
def soundly (d : Dialect) (c : SearchContext) (base : Source) (start : World σ) :
    Invariant (σ × List (TableCall σ)) where
  Holds w := SoundCalls d c base start w.state.2 w.log ∧ ∀ name,
    w.arena.registered.contains name = true → Accounts start w.state.2 name w.log
  Survives w := SoundCalls d c base start w.state.2 w.log
  survives h := h.1
  holds_scope _ h := h
  survives_scope _ h := h

theorem Accounts.mono {calls calls' : List (TableCall σ)} {name : String} {log : List Issued}
    (h : Accounts start calls name log) (hcalls : calls ⊆ calls') :
    Accounts start calls' name log :=
  h.imp_right fun ⟨call, hcall, hlatest⟩ => ⟨call, hcalls hcall, hlatest⟩

/-- A statement on another table changes nothing for a name. -/
theorem Accounts.cons {calls : List (TableCall σ)} {name : String} {log : List Issued}
    {i : Issued} (h : Accounts start calls name log) (hi : i.concerns name = false) :
    Accounts start calls name (i :: log) := by
  refine h.imp_right fun ⟨call, hcall, hname, hlatest⟩ => ⟨call, hcall, hname, ?_⟩
  subst hname
  rw [TableCall.IsLatest, lastSuccess?_cons_of_not (by rw [hi, Bool.and_false])]
  exact hlatest

/-- Once a call has created its table, the name is accounted for, and the others still are. -/
theorem Accounts.created {calls : List (TableCall σ)} {parts : List String}
    {selection : Selection} {world : World σ} {name : String} {log : List Issued}
    (hcall : ⟨parts, selection, world⟩ ∈ calls)
    (hother : tempTableName parts ≠ name → Accounts start calls name log) :
    Accounts start calls name
      (⟨.create (tempTableName parts) selection, none⟩ :: ⟨.drop (tempTableName parts), none⟩ ::
        log) := by
  by_cases hname : tempTableName parts = name
  · exact .inr ⟨_, hcall, hname, TableCall.isLatest_cons _ _⟩
  · have hdrop : Issued.concerns name ⟨.drop (tempTableName parts), none⟩ = false :=
      beq_eq_false_iff_ne.mpr hname
    have hcreate : Issued.concerns name ⟨.create (tempTableName parts) selection, none⟩ = false :=
      beq_eq_false_iff_ne.mpr hname
    exact ((hother hname).cons hdrop).cons hcreate

/-- A statement that creates no table has no need of a call. -/
theorem Issued.askedBy_of_not_create {calls : List (TableCall σ)} {i : Issued}
    (hi : ∀ name selection, i.statement ≠ .create name selection) : i.AskedBy calls :=
  fun name selection h => absurd h (hi name selection)

theorem Issued.askedBy_drop (calls : List (TableCall σ)) (name : String)
    (failure : Option StoreError) : Issued.AskedBy calls ⟨.drop name, failure⟩ :=
  askedBy_of_not_create fun _ _ h => Statement.noConfusion h

theorem SoundCalls.issued {calls : List (TableCall σ)} {log : List Issued} {i : Issued}
    (h : SoundCalls b.dialect c base start calls log) (hi : i.AskedBy calls) :
    SoundCalls b.dialect c base start calls (i :: log) :=
  ⟨h.walk, h.found, List.forall_mem_cons.mpr ⟨.inr hi, h.asked⟩⟩

/-- A call is written down in front of the others. -/
theorem SoundCalls.cons {calls : List (TableCall σ)} {call : TableCall σ} {log : List Issued}
    (h : SoundCalls b.dialect c base start calls log)
    (hcall : WalkCall b.dialect c base call.parts call.selection)
    (hfinds : call.FindsRegistered → Accounts start calls call.name call.world.log) :
    SoundCalls b.dialect c base start (call :: calls) log where
  walk := List.forall_mem_cons.mpr ⟨hcall, h.walk⟩
  found := by
    have hmono : calls ⊆ call :: calls := List.subset_cons_self call calls
    exact List.forall_mem_cons.mpr ⟨fun hfound => (hfinds hfound).mono hmono,
      fun other hother hfound => (h.found other hother hfound).mono hmono⟩
  asked i hi := (h.asked i hi).imp_right fun hasked name selection hcreate =>
    have ⟨other, hother, hsame⟩ := hasked name selection hcreate
    ⟨other, List.mem_cons_of_mem call hother, hsame⟩

theorem issue_soundly {w : World (σ × List (TableCall σ))} {s : Statement}
    (hw : (soundly b.dialect c base start).Holds w) (hs : s.isCommand = false) :
    Proceeds (soundly b.dialect c base start) w (issue (b.beside _) s) := by
  have hconcerns : ∀ name failure, Issued.concerns name ⟨s, failure⟩ = false := by
    intro name failure
    cases s <;> first | rfl | cases hs
  have hasked : ∀ failure, Issued.AskedBy w.state.2 ⟨s, failure⟩ := by
    refine fun failure => Issued.askedBy_of_not_create ?_
    rintro name selection rfl
    cases hs
  refine ⟨fun rows after hafter => ?_, hw.1.issued (hasked _)⟩
  rw [within_issue, Prod.mk.injEq] at hafter
  obtain ⟨-, rfl⟩ := hafter
  exact ⟨⟨hw.1.issued (hasked _), fun name hname => (hw.2 name hname).cons (hconcerns name _)⟩,
    rfl, List.Subset.refl _⟩

/-- A call with a new name leaves what is kept beside the state. -/
theorem within_materialize_beside {ρ : Type} {name : String} (selection : Selection)
    {w : World (σ × ρ)} (hname : w.arena.registered.contains name = false) :
    (∃ e state, (materialize (b.beside ρ) name selection).within w =
      (.error e, { w.registering name with
        state := (state, w.state.2)
        log := ⟨.drop name, some e⟩ :: w.log })) ∨
    ∃ answer state, (materialize (b.beside ρ) name selection).within w =
      (answer.map fun _ => (), { w.registering name with
        state := (state, w.state.2)
        log := ⟨.create name selection, failureOf answer⟩ :: ⟨.drop name, none⟩ :: w.log }) := by
  have hwithin := within_materialize_of_fresh (b.beside ρ) selection hname
  rw [within_issue] at hwithin
  cases hdrop : ((b.beside ρ).run (.drop name) (w.registering name).state).1 with
  | error e =>
    rw [hdrop] at hwithin
    exact .inl ⟨e, _, hwithin⟩
  | ok rows =>
    rw [hdrop] at hwithin
    exact .inr ⟨_, _, hwithin⟩

/-- A name that is registered is the new one, or was registered before. -/
theorem World.contains_registering {w : World σ} {name other : String}
    (hname : w.arena.registered.contains name = false)
    (hother : (w.registering name).arena.registered.contains other = true) :
    name = other ∨ w.arena.registered.contains other = true := by
  rw [World.registering, Arena.register_of_fresh hname, Std.HashSet.contains_insert,
    Bool.or_eq_true, beq_iff_eq] at hother
  exact hother

/-- A call that finds its name registered does nothing. -/
theorem recording_soundly_of_registered {w : World (σ × List (TableCall σ))} {parts : List String}
    {selection : Selection} (hw : (soundly b.dialect c base start).Holds w)
    (hcall : WalkCall b.dialect c base parts selection)
    (hname : w.arena.registered.contains (tempTableName parts) = true) :
    Proceeds (soundly b.dialect c base start) w (recording b parts selection) := by
  have hwithin : (recording b parts selection).within w = (.ok (), w.noting parts selection) := by
    rw [within_recording]
    exact within_materialize_of_registered _ selection hname
  have hsound : SoundCalls b.dialect c base start (w.noting parts selection).state.2 w.log :=
    hw.1.cons hcall fun _ => hw.2 _ hname
  refine ⟨fun _ after hafter => ?_, hwithin ▸ hsound⟩
  obtain ⟨-, rfl⟩ := Prod.mk.inj (hwithin.symm.trans hafter)
  refine ⟨⟨hsound, fun other hother => ?_⟩, rfl, List.Subset.refl _⟩
  exact (hw.2 other hother).mono (List.subset_cons_self _ _)

/-- A call that does not creates its table, unless it fails. -/
theorem recording_soundly_of_fresh {w : World (σ × List (TableCall σ))} {parts : List String}
    {selection : Selection} (hw : (soundly b.dialect c base start).Holds w)
    (hcall : WalkCall b.dialect c base parts selection)
    (hname : w.arena.registered.contains (tempTableName parts) = false) :
    Proceeds (soundly b.dialect c base start) w (recording b parts selection) := by
  let name := tempTableName parts
  let noted := w.noting parts selection
  have hcalled : ⟨parts, selection, w.forget⟩ ∈ noted.state.2 := List.mem_cons_self
  have hfresh : noted.arena.registered.contains name = false := hname
  have hsound : SoundCalls b.dialect c base start noted.state.2 w.log := by
    refine hw.1.cons hcall fun hfound => ?_
    rw [TableCall.FindsRegistered] at hfound
    exact absurd (hfound.symm.trans hname) (by decide)
  have hcreate : ∀ failure, Issued.AskedBy noted.state.2 ⟨.create name selection, failure⟩ := by
    rintro failure _ _ ⟨⟩
    exact ⟨_, hcalled, rfl, rfl⟩
  have hnames : (noted.registering name).arena.names = name :: w.arena.names :=
    World.names_registering hfresh
  -- the call has been written down before either of its statements is issued
  rcases within_materialize_beside (b := b) selection hfresh with
    ⟨e, state, hwithin⟩ | ⟨answer, state, hwithin⟩
  · refine ⟨fun _ after hafter => (nomatch hwithin.symm.trans hafter), ?_⟩
    rw [within_recording, hwithin]
    exact hsound.issued (Issued.askedBy_drop _ _ _)
  · have hcreated := (hsound.issued (Issued.askedBy_drop _ name none)).issued
      (hcreate (failureOf answer))
    refine ⟨fun _ after hafter => ?_, by rw [within_recording, hwithin]; exact hcreated⟩
    obtain ⟨hanswer, rfl⟩ := Prod.mk.inj (hwithin.symm.trans hafter)
    obtain ⟨rows, rfl, -⟩ := Steps.map_eq_ok.mp hanswer
    refine ⟨⟨hcreated, fun other hother => ?_⟩, rfl, ?_⟩
    · refine Accounts.created hcalled fun hne => ?_
      have hold : w.arena.registered.contains other = true := by
        rcases World.contains_registering hfresh hother with hsame | hold
        · exact absurd hsame hne
        · exact hold
      exact (hw.2 other hold).mono (List.subset_cons_self _ _)
    · rw [show _ = name :: w.arena.names from hnames]
      exact List.subset_cons_self _ _

theorem fillProgress_soundly :
    FillProgress (recording b) (b.beside _) c base (soundly b.dialect c base start) where
  read := fun hw hs => issue_soundly hw hs
  fill := fun {w parts selection} hw hcall => by
    cases hname : w.arena.registered.contains (tempTableName parts) with
    | true => exact recording_soundly_of_registered hw hcall hname
    | false => exact recording_soundly_of_fresh hw hcall hname

/-! ### Requests -/

/-- A request that compiles ends with the world that the clean-up leaves behind. -/
theorem runRequestFilling_world (fill : Fill σ) (b : Backend σ) (c : SearchContext) {r : Request}
    (w : World σ) {condition : Option Condition} (hr : r.predicate.compile = .ok condition) :
    ((runRequestFilling fill b c r).within w).2 = ((release b).within
      ((walkFilling fill b c r.aggregations
        (.documents c.targets c.types condition)).within w).2).2 := by
  rw [runRequestFilling, Run.within_bind, hr]
  simp only [Steps.mapError_ok, Run.within_lift]
  exact captured_world _ (release b) _ w

/-- The clean-up creates no tables. -/
theorem release_sound {w : World (σ × List (TableCall σ))}
    (hw : SoundCalls b.dialect c base start w.state.2 w.log) :
    let after := ((release (b.beside _)).within w).2
    SoundCalls b.dialect c base start after.state.2 after.log := by
  have hdrops : DropsKeep (b.beside (List (TableCall σ))) fun after =>
      SoundCalls b.dialect c base start after.state.2 after.log := fun _ h =>
    h.issued (Issued.askedBy_drop _ _ _)
  exact (release_keeps hdrops w).2 hw

/-- The calls of a request are sound. -/
theorem soundCalls_tableCalls (b : Backend σ) (c : SearchContext) (r : Request) (w : World σ) :
    ∃ condition, SoundCalls b.dialect c (.documents c.targets c.types condition) w
      (tableCalls b c r w) ((runRequest b c r).within w).2.log := by
  rw [recordedRequest_forgets b c r w]
  show ∃ condition, SoundCalls _ c (.documents c.targets c.types condition) w
    ((recordedRequest b c r).within w.unrecorded).2.state.2
    ((recordedRequest b c r).within w.unrecorded).2.log
  cases hr : r.predicate.compile with
  | error e =>
    have hstill : ((recordedRequest b c r).within w.unrecorded).2 = w.unrecorded := by
      rw [recordedRequest, runRequestFilling, Run.within_bind, hr]
      rfl
    rw [hstill]
    exact ⟨none, List.forall_mem_nil _, List.forall_mem_nil _, fun _ hi => .inl hi⟩
  | ok condition =>
    refine ⟨condition, ?_⟩
    rw [recordedRequest, runRequestFilling_world _ _ c _ hr]
    refine release_sound
      (walkFilling_proceeds fillProgress_soundly ⟨?_, ?_⟩ r.aggregations).survives
    · exact ⟨List.forall_mem_nil _, List.forall_mem_nil _, fun _ hi => .inl hi⟩
    · exact fun name hname => .inl hname

/-! ### A database without rows -/

/-- A database that answers every statement, with no rows. -/
def silent : Backend Unit where
  dialect := .sqlite
  run _ state := (.ok [], state)
  cancelled _ := false
  tableFor _ _ := .ok none
  listIndices _ := .ok []

section Silent

variable {c : SearchContext} {key : BucketKey} {field : String} {interval : Interval}
  {w : World (Unit × List (TableCall Unit))}

/-- The world after a call that succeeds, given what is logged by then. -/
def World.called (parts : List String) (selection : Selection) (log : List Issued)
    (w : World (Unit × List (TableCall Unit))) : World (Unit × List (TableCall Unit)) :=
  { (w.noting parts selection).registering (tempTableName parts) with log }

/-- A call succeeds, whether the name is registered or not. -/
theorem recording_silent (parts : List String) (selection : Selection) :
    ∃ log, (recording silent parts selection).within w =
      (.ok (), w.called parts selection log) := by
  let name := tempTableName parts
  cases hname : (w.noting parts selection).arena.registered.contains name with
  | true =>
    refine ⟨w.log, ?_⟩
    rw [within_recording, within_materialize_of_registered _ _ hname, World.called,
      World.registering, Arena.register, hname]
    rfl
  | false =>
    refine ⟨⟨.create name selection, none⟩ :: ⟨.drop name, none⟩ :: w.log, ?_⟩
    rw [within_recording, within_materialize_of_fresh _ _ hname]
    rfl

/-- A histogram with children calls for one table. -/
theorem histogram_silent (hkey : bucketKey c field interval = .ok key)
    (child : String × Aggregation) (w : World (Unit × List (TableCall Unit))) :
    ∃ log, (Aggregation.runFilling (recording silent) (silent.beside _) c
        (.dateHistogram field interval none [child])).within w =
      (.ok (.obj [("buckets", .arr [])]),
        w.called (bucketedTableParts .sqlite c w.scope key) (.bucketed key w.scope) log) := by
  let parts := bucketedTableParts .sqlite c w.scope key
  obtain ⟨log, hcall⟩ := recording_silent (w := w) parts (.bucketed key w.scope)
  let filled := w.called parts (.bucketed key w.scope) log
  let listed := { filled with log := ⟨.buckets (tempTableName parts), none⟩ :: log }
  have hfill : ((recording silent parts (.bucketed key w.scope)).mapError
      ExecutionError.aggregation).within w = (.ok (), filled) := by
    rw [within_mapError, hcall]
    rfl
  have hbuckets : (bucketsFilling (recording silent) (silent.beside _) c key none
      (Aggregations.runFilling (recording silent) (silent.beside _) c [child])).within w =
        (.ok [], listed) :=
    within_bind_eq_ok.mpr ⟨w.scope, w, rfl, within_bind_eq_ok.mpr ⟨(), filled, hfill,
      within_bind_eq_ok.mpr ⟨[], listed, rfl, rfl⟩⟩⟩
  have hkeyed : (Run.lift (bucketKey c field interval)).within w = (.ok key, w) := by
    rw [within_lift, hkey]
  refine ⟨listed.log, ?_⟩
  rw [Aggregation.runFilling]
  exact within_bind_eq_ok.mpr ⟨(), w, rfl, within_bind_eq_ok.mpr ⟨key, w, hkeyed,
    within_bind_eq_ok.mpr ⟨[], listed, hbuckets, rfl⟩⟩⟩

/-- The clean-up writes no calls down. -/
theorem release_keeps_calls (w : World (Unit × List (TableCall Unit))) :
    ((release (silent.beside _)).within w).2.state.2 = w.state.2 := by
  have hdrops : DropsKeep (silent.beside _) fun after => after.state.2 = w.state.2 := fun _ h => h
  exact (release_keeps hdrops w).2 rfl

/-- Two histograms over the same field call for the same table, and the second one finds it
registered. -/
theorem tableCalls_silent (hkey : bucketKey c field interval = .ok key)
    (child : String × Aggregation) :
    let histogram := Aggregation.dateHistogram field interval none [child]
    let r : Request := ⟨.matchAll, [("a", histogram), ("b", histogram)], 0, 10, [], ""⟩
    let base := Source.documents c.targets c.types none
    let parts := bucketedTableParts .sqlite c base key
    ∃ second first, tableCalls silent c r (World.start ()) =
        [⟨parts, .bucketed key base, second⟩, ⟨parts, .bucketed key base, first⟩] ∧
      second.arena.registered.contains (tempTableName parts) = true := by
  intro histogram r base parts
  -- the second histogram starts in the world that the first one leaves
  let begun : World (Unit × List (TableCall Unit)) :=
    { (World.start ()).unrecorded with scope := base }
  obtain ⟨log, hfirst⟩ := histogram_silent hkey child begun
  let between := begun.called parts (.bucketed key base) log
  obtain ⟨log', hsecond⟩ := histogram_silent hkey child between
  refine ⟨between.forget, begun.forget, ?_, ?_⟩
  · rw [tableCalls, recordedRequest, runRequestFilling_world _ _ c _ rfl, release_keeps_calls]
    show ((Aggregations.runFilling (recording silent) (silent.beside _) c
      [("a", histogram), ("b", histogram)]).within begun).2.state.2 = _
    rw [Aggregations.runFilling, Aggregations.runFilling, Aggregations.runFilling, within_bind,
      hfirst]
    simp only [within_bind]
    rw [hsecond]
    rfl
  · show (Arena.empty.register (tempTableName parts)).2.registered.contains _ = true
    simp [Arena.register, Arena.empty]

end Silent

/-! ### Reuse -/

/-- Parts are short, and digests that are equal are digests of the same bytes. -/
structure DigestsApart (calls : List (TableCall σ)) : Prop where
  short : ∀ call ∈ calls, ∀ part ∈ call.parts, IsShort part
  collisionFree : ∀ call ∈ calls, ∀ other ∈ calls,
    tableDigest call.parts = tableDigest other.parts →
      tableDigestInput call.parts = tableDigestInput other.parts

/-- Calls for one table. -/
theorem DigestsApart.of_parts_eq {parts : List String} {calls : List (TableCall σ)}
    (hshort : ∀ part ∈ parts, IsShort part) (hcalls : ∀ call ∈ calls, call.parts = parts) :
    DigestsApart calls where
  short call hcall := hcalls call hcall ▸ hshort
  collisionFree call hcall other hother _ := by rw [hcalls call hcall, hcalls other hother]

/-- **A call that finds its name registered finds the table that it asks for.**  What the name
of a table is a digest of determines the parts of the name.  The calls are those of the request
itself, and it creates no table for which none of them asks.  Calls of one name ask for the same
text with the same values, as long as digests that are equal are digests of the same; and where
a call finds a name that was not registered at the start, the latest statement on the table has
created it from what the call asks for. -/
theorem tableCalls_reuse (b : Backend σ) (c : SearchContext) (r : Request) (w : World σ) :
    (∀ parts parts' : List String, (∀ s ∈ parts, IsShort s) → (∀ s ∈ parts', IsShort s) →
      tableDigestInput parts = tableDigestInput parts' → parts = parts') ∧
    (runRequest b c r).within w = (((recordedRequest b c r).within w.unrecorded).1,
      ((recordedRequest b c r).within w.unrecorded).2.forget) ∧
    (∀ i ∈ ((runRequest b c r).within w).2.log, i ∈ w.log ∨ i.AskedBy (tableCalls b c r w)) ∧
    (DigestsApart (tableCalls b c r w) →
      (∀ call ∈ tableCalls b c r w, ∀ other ∈ tableCalls b c r w, call.name = other.name →
        call.selection.render b.dialect = other.selection.render b.dialect) ∧
      (∀ call ∈ tableCalls b c r w, call.FindsRegistered →
        w.arena.registered.contains call.name = false →
          ∃ selection, lastSuccess? call.name call.world.log =
              some ⟨.create call.name selection, none⟩ ∧
            selection.render b.dialect = call.selection.render b.dialect)) := by
  obtain ⟨condition, hsound⟩ := soundCalls_tableCalls b c r w
  refine ⟨fun _ _ => tableDigestInput_injective, recordedRequest_forgets b c r w, hsound.asked,
    fun hapart => ?_⟩
  have hsame : ∀ call ∈ tableCalls b c r w, ∀ other ∈ tableCalls b c r w, call.name = other.name →
      call.selection.render b.dialect = other.selection.render b.dialect := by
    intro call hcall other hother hname
    refine (hsound.walk call hcall).render_eq (hsound.walk other hother) ?_
    exact tableDigestInput_injective (hapart.short call hcall) (hapart.short other hother)
      (hapart.collisionFree call hcall other hother (tempTableName_inj hname))
  refine ⟨hsame, fun call hcall hfound hnew => ?_⟩
  -- a name that was registered at the start is excluded by assumption
  rcases hsound.found call hcall hfound with hstart | ⟨creator, hcreator, hname, hlatest⟩
  · exact absurd (hstart.symm.trans hnew) (by decide)
  · exact ⟨creator.selection, hname ▸ hlatest, hsame creator hcreator call hcall hname⟩

/-- Two histograms over the same field: the second one finds the table of the first one. -/
theorem tableCalls_reuse_siblings :
    let c : SearchContext :=
      ⟨[⟨"p", "sift_idx_p"⟩], [], Mappings.empty.put "p" none "at" .date, "body"⟩
    let days := Aggregation.dateHistogram "at" .day none [("n", .metric .valueCount "_id")]
    let r : Request := ⟨.matchAll, [("a", days), ("b", days)], 0, 10, [], ""⟩
    tableDigestInput ["ab", "c"] ≠ tableDigestInput ["a", "bc"] ∧
      DigestsApart (tableCalls silent c r (World.start ())) ∧
      ∃ call ∈ tableCalls silent c r (World.start ()), call.FindsRegistered ∧
        ∃ selection, lastSuccess? call.name call.world.log =
            some ⟨.create call.name selection, none⟩ ∧
          selection.render .sqlite = call.selection.render .sqlite := by
  intro c days r
  have hkey : bucketKey c "at" .day = .ok ⟨"at", .formatted, .day⟩ := rfl
  obtain ⟨second, first, hcalls, hfound⟩ :=
    tableCalls_silent hkey ("n", .metric .valueCount "_id")
  have hshort : ∀ part ∈ bucketedTableParts .sqlite c (.documents c.targets c.types none)
      ⟨"at", .formatted, .day⟩ ++ ["ab", "c"] ++ ["a", "bc"],
        (Text.utf8 part).length < 2 ^ 64 := by decide +kernel
  rw [List.forall_mem_append, List.forall_mem_append] at hshort
  obtain ⟨⟨hparts, hleft⟩, hright⟩ := hshort
  have hapart : DigestsApart (tableCalls silent c r (World.start ())) := by
    rw [hcalls]
    exact .of_parts_eq hparts
      (List.forall_mem_cons.mpr ⟨rfl, List.forall_mem_singleton.mpr rfl⟩)
  have hsecond := hcalls ▸ List.mem_cons_self
  obtain ⟨hinjective, -, -, hreuse⟩ := tableCalls_reuse silent c r (World.start ())
  refine ⟨fun hdigest => ?_, hapart, _, hsecond, hfound, ?_⟩
  · exact absurd (hinjective _ _ hleft hright hdigest) (by decide)
  · exact (hreuse hapart).2 _ hsecond hfound (by simp [World.start, Arena.empty])

end DocSearch
