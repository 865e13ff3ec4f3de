import DocSearch.Proofs.Engine.Sharing

/-!
# What a search issues next

A search knows of its database only what has been answered so far.  So what it issues next
is determined by what it has met, whatever it is going to meet behind that: two runs of a
search that meet the same up to some statement issue the same up to the statement behind
it.

## Main definitions

* `Encounters.push` — one more thing to meet behind all others.
* `World.known`, `World.more` — how many statements are determined, and a world with more
  to meet.
* `Parted` — two runs have issued the same as long as they were determined.
* `Run.Follows` — a computation stays the same if there is more to meet, until then.

## Main results

* `Follows.bind` — sequences follow what is met if their parts do.
* `Corpus.issued_push` — what a search issues is determined by what it has met.
-/

namespace DocSearch

/-- What is met, and one more thing behind it. -/
def Encounters.push (e : Encounters) (session : Session) : Encounters :=
  { e with ahead := e.ahead ++ [session] }

/-! ### Two runs -/

namespace World

/-- How many statements will have been issued when there is nothing left to meet. -/
def known (w : World Encounters) : Nat := w.log.length + w.state.ahead.length

/-- A world in which there is more to meet behind everything else. -/
def more (later : List Session) (w : World Encounters) : World Encounters :=
  { w with state := { w.state with ahead := w.state.ahead ++ later } }

end World

/-- Two runs have issued the same statements as long as what they met was known, and one
more. -/
def Parted (known : Nat) (w w' : World Encounters) : Prop :=
  ∃ common : List Statement, common.length = known + 1 ∧
    common <:+ w.log.map (·.statement) ∧ common <:+ w'.log.map (·.statement)

/-- Later statements change nothing of that. -/
theorem Parted.mono {known : Nat} {w w' after after' : World Encounters} (h : Parted known w w')
    (hafter : w.log <:+ after.log) (hafter' : w'.log <:+ after'.log) : Parted known after after' := by
  obtain ⟨common, hlength, hcommon, hcommon'⟩ := h
  exact ⟨common, hlength, hcommon.trans (hafter.map _), hcommon'.trans (hafter'.map _)⟩

namespace Run

variable {ε ε' α β : Type}

/-- A computation adds to the log.  If there is more to meet, it does the same, until it has
met all there was before. -/
structure Follows (r : Run Encounters ε α) : Prop where
  grows : ∀ w, w.log <:+ (r.within w).2.log
  same_or_parted : ∀ (later : List Session) (w : World Encounters),
    (r.within (w.more later) = ((r.within w).1, (r.within w).2.more later) ∧
      (r.within w).2.known = w.known) ∨
    Parted w.known (r.within w).2 (r.within (w.more later)).2

/-- A computation that does not look at what is met. -/
theorem Follows.of_blind {r : Run Encounters ε α} (hlog : ∀ w, (r.within w).2.log = w.log)
    (hstate : ∀ w, (r.within w).2.state = w.state)
    (hmore : ∀ later w, r.within (w.more later) = ((r.within w).1, (r.within w).2.more later)) :
    Follows r := by
  refine ⟨fun w => ?_, fun later w => .inl ⟨hmore later w, ?_⟩⟩
  · exact (hlog w).symm ▸ List.suffix_refl w.log
  · rw [World.known, hlog, hstate, World.known]

theorem Follows.pure (a : α) : Follows (Pure.pure a : Run Encounters ε α) :=
  .of_blind (fun _ => rfl) (fun _ => rfl) fun _ _ => rfl

theorem Follows.lift (x : Except ε α) : Follows (Run.lift x : Run Encounters ε α) :=
  .of_blind (fun _ => rfl) (fun _ => rfl) fun _ _ => rfl

theorem Follows.read {g : World Encounters → α} (hg : ∀ later w, g (w.more later) = g w) :
    Follows (Run.read g : Run Encounters ε α) := by
  refine .of_blind (fun _ => rfl) (fun _ => rfl) fun later w => ?_
  rw [within_read, within_read, hg]

theorem bind_grows {r : Run Encounters ε α} {f : α → Run Encounters ε β}
    (hf : ∀ a, Follows (f a)) (w : World Encounters) :
    (r.within w).2.log <:+ ((r >>= f).within w).2.log := by
  rw [within_bind]
  cases r.within w with
  | mk result after =>
    cases result with
    | error e => exact List.suffix_refl _
    | ok a => exact (hf a).grows after

/-- What comes second may depend on what comes first, which is the same in both runs unless
they have parted. -/
theorem Follows.bind {r : Run Encounters ε α} {f : α → Run Encounters ε β} (hr : Follows r)
    (hf : ∀ a, Follows (f a)) : Follows (r >>= f) := by
  refine ⟨fun w => (hr.grows w).trans (bind_grows hf w), fun later w => ?_⟩
  rcases hr.same_or_parted later w with ⟨hsame, hknown⟩ | hparted
  · rw [within_bind, within_bind, hsame]
    cases hwithin : r.within w with
    | mk result after =>
      rw [hwithin] at hknown
      cases result with
      | error e => exact .inl ⟨rfl, hknown⟩
      | ok a =>
        rw [← hknown]
        exact (hf a).same_or_parted later after
  · exact .inr (hparted.mono (bind_grows hf w) (bind_grows hf _))

theorem Follows.congr {r r' : Run Encounters ε α} (hr : Follows r)
    (h : ∀ w, r'.within w = r.within w) : Follows r' := by
  refine ⟨fun w => ?_, fun later w => ?_⟩
  · rw [h]
    exact hr.grows w
  · rw [h, h]
    exact hr.same_or_parted later w

/-- What is read does not matter to what comes second. -/
theorem Follows.read_bind {g : World Encounters → α} {f : α → Run Encounters ε β} (a : α)
    (hg : ∀ w, f (g w) = f a) (hf : Follows (f a)) : Follows (Run.read g >>= f) := by
  refine hf.congr fun w => ?_
  rw [within_bind, within_read]
  show (f (g w)).within w = _
  rw [hg]

theorem Follows.mapError {r : Run Encounters ε α} (hr : Follows r) (f : ε → ε') :
    Follows (r.mapError f) := by
  refine ⟨hr.grows, fun later w => ?_⟩
  rw [within_mapError, within_mapError]
  rcases hr.same_or_parted later w with ⟨hsame, hknown⟩ | hparted
  · rw [hsame]
    exact .inl ⟨rfl, hknown⟩
  · exact .inr hparted

theorem Follows.capture {r : Run Encounters ε α} (hr : Follows r) :
    Follows (r.capture : Run Encounters ε' (Except ε α)) := by
  refine ⟨hr.grows, fun later w => ?_⟩
  rw [within_capture, within_capture]
  rcases hr.same_or_parted later w with ⟨hsame, hknown⟩ | hparted
  · rw [hsame]
    exact .inl ⟨rfl, hknown⟩
  · exact .inr hparted

theorem Follows.withScope {r : Run Encounters ε α} (hr : Follows r) (scope : Source) :
    Follows (DocSearch.withScope scope r) := by
  refine ⟨fun w => hr.grows { w with scope }, fun later w => ?_⟩
  rw [within_withScope, within_withScope]
  rcases hr.same_or_parted later { w with scope } with ⟨hsame, hknown⟩ | hparted
  · have hsame : r.within { w.more later with scope } = _ := hsame
    rw [hsame]
    exact .inl ⟨rfl, hknown⟩
  · exact .inr hparted

end Run

/-! ### Searches -/

section Searches

open Run Encounters

variable {ε : Type} {atRest : Database} {c : SearchContext}

/-- The statement behind everything that is known is the last one that is determined. -/
theorem issue_follows (s : Statement) : Follows (issue (backend atRest) s) := by
  refine ⟨fun w => List.suffix_cons _ _, fun later w => ?_⟩
  obtain ⟨⟨ahead, cancelled⟩, scope, arena, log⟩ := w
  cases ahead with
  | nil =>
    refine .inr ⟨s :: log.map (·.statement), ?_, List.suffix_refl _, List.suffix_refl _⟩
    simp [World.known]
  | cons session ahead =>
    refine .inl ⟨rfl, ?_⟩
    show log.length + 1 + ahead.length = log.length + (ahead.length + 1)
    omega

theorem query_follows (s : Statement) : Follows (query (backend atRest) s) :=
  (issue_follows s).mapError _

theorem checkCancelled_follows : Follows (checkCancelled (backend atRest)) :=
  .of_blind (fun _ => rfl) (fun _ => rfl) fun _ _ => rfl

theorem materialize_follows (name : String) (selection : Selection) :
    Follows (materialize (backend atRest) name selection) := by
  rw [materialize]
  refine Follows.bind (.of_blind (fun _ => rfl) (fun _ => rfl) fun _ _ => rfl) fun fresh => ?_
  cases fresh with
  | false => exact .pure _
  | true => exact (issue_follows _).bind fun _ => (issue_follows _).bind fun _ => .pure _

/-- Each step of a walk follows what it meets, and so does a walk. -/
theorem walkLaw_follows : WalkLaw (backend atRest) c Follows where
  pure := Follows.pure
  bind := Follows.bind
  enter := fun scope hr => hr.withScope scope
  scope := .read fun _ _ => rfl
  check := checkCancelled_follows
  key := fun _ _ => .lift _
  read := query_follows
  fill := fun name selection => (materialize_follows name selection).mapError _

/-- Taking a name out of the arena. -/
def popName : Run Encounters ε (Option String) :=
  Run.of fun w => match w.arena.pop? with
    | none => (.ok none, w)
    | some (name, arena) => (.ok (some name), { w with arena })

theorem popName_follows {ε : Type} : Follows (popName : Run Encounters ε (Option String)) := by
  refine .of_blind (fun w => ?_) (fun w => ?_) fun later w => ?_
  · rw [popName, within_of]
    cases w.arena.pop? <;> rfl
  · rw [popName, within_of]
    cases w.arena.pop? <;> rfl
  · rw [popName, within_of, within_of, show (w.more later).arena = w.arena from rfl]
    cases w.arena.pop? <;> rfl

/-- Dropping tables, with the first failure as its result. -/
def dropping (atRest : Database) (count : Nat) (first : Option StoreError) :
    Run Encounters ε (Option StoreError) :=
  Run.of fun w => (.ok (dropTables (backend atRest) count first w).1,
    (dropTables (backend atRest) count first w).2)

theorem dropping_follows {ε : Type} (count : Nat) : ∀ first : Option StoreError,
    Follows (dropping atRest count first : Run Encounters ε (Option StoreError)) := by
  induction count with
  | zero => exact fun first => .pure first
  | succ count ih =>
    intro first
    -- a name is taken out, its table is dropped, and so on
    let rest (popped : Option String) : Run Encounters ε (Option StoreError) :=
      popped.elim (pure first) fun name =>
        (issue (backend atRest) (.drop name)).capture >>= fun answer =>
          dropping atRest count (first.or (failureOf answer))
    have hrest : ∀ popped, Follows (rest popped) := by
      intro popped
      cases popped with
      | none => exact .pure first
      | some name => exact (issue_follows _).capture.bind fun answer => ih _
    refine (popName_follows.bind hrest).congr fun w => ?_
    rw [within_bind, popName, within_of, dropping, within_of, dropTables]
    cases w.arena.pop? with
    | none => rfl
    | some popped =>
      obtain ⟨name, arena⟩ := popped
      show _ = ((issue (backend atRest) (.drop name)).capture >>= fun answer =>
          dropping atRest count (first.or (failureOf answer))).within { w with arena }
      rw [within_bind, within_capture]
      rfl

theorem release_follows : Follows (release (backend atRest)) := by
  let failing : Option StoreError → Run Encounters StoreError Unit := fun failure =>
    Run.lift (failure.elim (.ok ()) .error)
  have hdropping : ∀ size : Nat, Follows (dropping atRest size none >>= failing) :=
    fun size => (dropping_follows size none).bind fun failure => .lift _
  have hsize : Follows (Run.read fun w => w.arena.size : Run Encounters StoreError Nat) :=
    .read fun _ _ => rfl
  refine (hsize.bind hdropping).congr fun w => ?_
  rw [release, within_of, within_bind, within_read]
  show _ = (dropping atRest w.arena.size none >>= failing).within w
  rw [within_bind, dropping, within_of]
  cases h : (dropTables (backend atRest) w.arena.size none w).1 <;> simp [failing, within_lift, h]

theorem runRequest_follows (r : Request) : Follows (runRequest (backend atRest) c r) := by
  rw [runRequest]
  refine (Follows.lift _).bind fun condition => ?_
  have hwalk : Follows (Aggregations.execute (backend atRest) c r.aggregations) :=
    walkLaw_follows.execute r.aggregations
  refine (hwalk.withScope _).capture.bind fun walk => ?_
  refine release_follows.capture.bind fun released => ?_
  refine (Follows.lift _).bind fun aggregations => ?_
  exact (Follows.lift _).bind fun _ => .pure _

theorem fetchHits_follows (condition : Option Condition) (sort : List SortClause)
    (size offset : Int64) : Follows (fetchHits (backend atRest) c condition sort size offset) := by
  rw [fetchHits]
  refine (issue_follows _).bind fun rows => ?_
  split
  · exact .pure _
  · refine (issue_follows _).bind fun page => ?_
    exact (Follows.lift _).bind fun hits => .pure _

/-- **A search follows what it meets.** -/
theorem search_follows (mappings : Mappings) (options : RequestOptions) (call : SearchCall) :
    Follows (search (backend atRest) mappings options call) := by
  rw [search]
  refine (Follows.lift _).bind fun r => ?_
  have htargets : Follows (resolveTargets (backend atRest) call.indices) :=
    -- the indices are those of the database at rest, whatever the search has met
    Follows.read_bind {} (fun _ => rfl) ((Follows.lift _).bind fun _ => Follows.lift _)
  refine htargets.bind fun targets => ?_
  refine ((runRequest_follows r).withScope _).bind fun found => ?_
  refine checkCancelled_follows.bind fun _ => ?_
  exact ((fetchHits_follows found.condition r.sort _ _).mapError _).bind fun hits => .pure _

end Searches

namespace Corpus

/-- The statements that a search issues, the earliest first, if it meets something. -/
def issued (v : Corpus) (call : SearchCall) (e : Encounters) : List Statement :=
  ((v.encounter call e).2.log.map (·.statement)).reverse

theorem take_reverse_of_suffix {α : Type} {common l : List α} (h : common <:+ l) :
    l.reverse.take common.length = common.reverse := by
  obtain ⟨before, rfl⟩ := h
  rw [List.reverse_append, ← List.length_reverse, List.take_left]

/-- **What a search issues is determined by what it has met**, up to the statement behind
it. -/
theorem issued_push (v : Corpus) (call : SearchCall) (e : Encounters) (session : Session) :
    (v.issued call (e.push session)).take (e.ahead.length + 1) =
      (v.issued call e).take (e.ahead.length + 1) := by
  have hsearch : Run.Follows (search (Encounters.backend v.database) v.mappings v.options call) :=
    search_follows v.mappings v.options call
  have hfollows := hsearch.same_or_parted [session] (World.start e)
  have hknown : (World.start e).known = e.ahead.length := Nat.zero_add _
  have hmore : (World.start e).more [session] = World.start (e.push session) := rfl
  rw [hmore] at hfollows
  rcases hfollows with ⟨hsame, -⟩ | ⟨common, hlength, hcommon, hcommon'⟩
  · rw [issued, encounter, hsame]
    rfl
  · rw [← hknown, ← hlength]
    exact (take_reverse_of_suffix hcommon').trans (take_reverse_of_suffix hcommon).symm

end Corpus

end DocSearch
