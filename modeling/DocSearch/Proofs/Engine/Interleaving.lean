import DocSearch.Proofs.Engine.Allowance
import DocSearch.Proofs.Engine.Following
import DocSearch.Proofs.Engine.Holding
import Mathlib.Logic.Function.Basic

/-!
# Searches that run at the same time

Several searches share one database and its temporary tables, and their statements follow
each other in any order.  The names of temporary tables say what they hold, so searches for
the same text drop and create each other's tables in the middle of their walks.  All the
same, no search ever reads a wrong row: a table that is there holds what everyone who asks
for it expects, and a search that misses a table, or finds one where it is about to create
it, fails.  And since every search drops what it has tried to create, the last one leaves
no table behind.  No search has to wait for another one: it ends as soon as it has had as many
turns as it issues statements at most.

## Main definitions

* `Corpus.next?`, `Corpus.result?` — what a search issues next, and its result when it has
  ended.
* `Interleaving`, `Interleaving.step`, `Interleaving.run` — searches that run at the same
  time, one statement of one of them at a time.
* `Interleaving.Sound` — what holds of them at any time.

## Main results

* `Interleaving.Sound.step`, `Interleaving.sound_run` — it is kept by a statement, and so
  by all.
* `Interleaving.searches_end` — a search ends after so many turns, whatever the others do.
* `Interleaving.searches_agree` — each search gives what it gives alone, or fails with an
  excuse, and in the end the database is as before.
-/

namespace DocSearch

/-! ### Searches that are under way -/

namespace Corpus

/-- The statement that a search issues next; there is none if it has ended. -/
def next? (v : Corpus) (call : SearchCall) (e : Encounters) : Option Statement :=
  (v.issued call e)[e.ahead.length]?

/-- The result of a search that has ended. -/
def result? (v : Corpus) (call : SearchCall) (e : Encounters) :
    Option (Except ExecutionError Response) :=
  if (v.next? call e).isNone then some (v.encounter call e).1 else none

/-- The statements that a search has issued so far, the latest first. -/
def past (v : Corpus) (call : SearchCall) (e : Encounters) : List Statement :=
  ((v.issued call e).take e.ahead.length).reverse

variable {v : Corpus} {call : SearchCall} {e : Encounters} {s : Statement}

theorem next?_of_ended (h : (v.result? call e).isSome) : v.next? call e = none := by
  rw [result?] at h
  by_cases hnext : (v.next? call e).isNone
  · exact Option.isNone_iff_eq_none.mp hnext
  · rw [if_neg hnext] at h
    cases h

theorem ended_of_next? (h : v.next? call e = none) : (v.result? call e).isSome := by
  rw [result?, h]
  rfl

/-- A search that has met all that its statements can meet has ended. -/
theorem next?_of_length_le (h : (v.encounter call e).2.log.length ≤ e.ahead.length) :
    v.next? call e = none := by
  rw [next?, List.getElem?_eq_none_iff, issued, List.length_reverse, List.length_map]
  exact h

/-- What a search has met behind a statement does not change what it has issued. -/
theorem past_push (hs : v.next? call e = some s) (session : Session) :
    v.past call (e.push session) = s :: v.past call e := by
  have hlength : (e.push session).ahead.length = e.ahead.length + 1 := by simp [Encounters.push]
  rw [next?] at hs
  rw [past, hlength, issued_push, List.take_add_one, hs, past]
  simp

/-- A search that has ended has issued all its statements. -/
theorem past_of_ended (h : v.next? call e = none) :
    v.past call e = (v.encounter call e).2.log.map (·.statement) := by
  rw [next?, List.getElem?_eq_none_iff] at h
  rw [past, List.take_of_length_le h, issued, List.reverse_reverse]

theorem exists_of_next? (hs : v.next? call e = some s) :
    ∃ i ∈ (v.encounter call e).2.log, i.statement = s := by
  have hmem : s ∈ v.issued call e := List.mem_of_getElem? hs
  rw [issued, List.mem_reverse, List.mem_map] at hmem
  exact hmem

/-- Searches drop and create only temporary tables. -/
theorem isTemporaryName_of_next? (hs : v.next? call e = some s) :
    ∀ name ∈ s.commanded?, IsTemporaryName name := by
  obtain ⟨i, hi, rfl⟩ := exists_of_next? hs
  exact (search_ended (Encounters.backend v.database) v.mappings v.options call e).tracks.commanded i hi

/-- A search that has ended holds no table. -/
theorem isHeld_past_of_ended (h : v.next? call e = none) (name : String) :
    isHeld name (v.past call e) = false := by
  rw [past_of_ended h]
  exact search_holds_nothing (Encounters.backend v.database) v.mappings v.options call e name

end Corpus

/-- A turn: which search issues its next statement, and whether it is cancelled behind it. -/
structure Turn (ι : Type) where
  /-- The search. -/
  search : ι
  /-- Whether it is cancelled. -/
  cancelled : Bool := false

/-- Searches that run at the same time. -/
structure Interleaving (ι : Type) where
  /-- The database that they share. -/
  database : Database
  /-- What each of them has met so far. -/
  met : ι → Encounters

namespace Interleaving

variable {ι : Type} [DecidableEq ι]

/-- No search has issued a statement; some may be cancelled already. -/
def start (v : Corpus) (cancelled : ι → Bool) : Interleaving ι :=
  ⟨v.database, fun i => { cancelled := cancelled i }⟩

/-- A search issues a statement, which meets the database as the others have left it. -/
def issue (x : Interleaving ι) (turn : Turn ι) (s : Statement) : Interleaving ι :=
  let session : Session := ⟨x.database, turn.cancelled⟩
  { database := (Session.run s session).2.database
    met := Function.update x.met turn.search ((x.met turn.search).push session) }

theorem met_issue_self (x : Interleaving ι) (turn : Turn ι) (s : Statement) :
    (x.issue turn s).met turn.search = (x.met turn.search).push ⟨x.database, turn.cancelled⟩ :=
  Function.update_self turn.search _ x.met

theorem met_issue_of_ne (x : Interleaving ι) {turn : Turn ι} (s : Statement) {i : ι}
    (hi : i ≠ turn.search) : (x.issue turn s).met i = x.met i :=
  Function.update_of_ne hi _ x.met

/-- The search whose turn it is issues its next statement, unless it has ended. -/
def step (v : Corpus) (calls : ι → SearchCall) (x : Interleaving ι) (turn : Turn ι) :
    Interleaving ι :=
  match v.next? (calls turn.search) (x.met turn.search) with
  | none => x
  | some s => x.issue turn s

/-- The searches after some turns. -/
def run (v : Corpus) (calls : ι → SearchCall) (cancelled : ι → Bool) (turns : List (Turn ι)) :
    Interleaving ι := turns.foldl (step v calls) (start v cancelled)

end Interleaving

/-! ### What holds at any time -/

/-- There are no temporary tables of searches. -/
def Database.IsSwept (db : Database) : Prop := ∀ m ∈ db.temporary, ¬IsTemporaryName m.1

theorem Table.isTemporaryName (t : Table) : IsTemporaryName t.name :=
  isTemporaryName_tempTableName t.parts

theorem Database.IsSwept.fits {db : Database} (h : db.IsSwept) (tables : Table → Prop) :
    db.Fits tables db.indices := by
  refine ⟨rfl, fun t _ => .inl ?_⟩
  rw [temporaryTable?, List.lookup_eq_none_iff]
  intro m hm
  rw [bne_iff_ne]
  rintro hname
  exact h m hm (hname ▸ t.isTemporaryName)

namespace Interleaving

variable {ι : Type} {v : Corpus} {calls : ι → SearchCall} {tables : Table → Prop}
  {x : Interleaving ι}

/-- What holds of searches at any time: the database fits, and so did everything that the
searches have met; and every temporary table that was not there at first is held by some
search. -/
structure Sound (v : Corpus) (calls : ι → SearchCall) (tables : Table → Prop)
    (x : Interleaving ι) : Prop where
  fits : x.database.Fits tables v.database.indices
  met : ∀ i, ∀ session ∈ (x.met i).ahead, session.database.Fits tables v.database.indices
  held : ∃ added, x.database.temporary = added ++ v.database.temporary ∧
    ∀ m ∈ added, ∃ i, isHeld m.1 (v.past (calls i) (x.met i)) = true

theorem sound_start (hswept : v.database.IsSwept) (cancelled : ι → Bool) :
    Sound v calls tables (start v cancelled) :=
  ⟨hswept.fits tables, fun _ _ h => (nomatch h), [], rfl, fun _ h => nomatch h⟩

theorem Sound.encounters (hx : Sound v calls tables x) (i : ι) :
    (x.met i).Fits tables v.database.indices ((x.met i).isFlagged = true) := by
  refine ⟨hx.met i, fun h => ?_, fun session hsession h => ?_⟩
  · rw [Encounters.isFlagged, h, Bool.true_or]
  · rw [Encounters.isFlagged, List.any_eq_true.mpr ⟨session, hsession, h⟩, Bool.or_true]

/-- What a search issues next is known, whoever has used the database before. -/
theorem Sound.isKnown (htables : Coherent tables) (hswept : v.database.IsSwept)
    (hasked : ∀ i, ∀ t ∈ v.tables (calls i), tables t) (hx : Sound v calls tables x) {i : ι}
    {s : Statement} (hs : v.next? (calls i) (x.met i) = some s) :
    s.IsKnown tables v.database.indices := by
  obtain ⟨issued, hissued, rfl⟩ := Corpus.exists_of_next? hs
  exact (Corpus.search_shared htables (hswept.fits tables) (hasked i) (hx.encounters i)).2 issued hissued

/-- The tables that searches ask for hold the same rows under the same name. -/
theorem coherent_asked (hdistinguished : Distinguished fun t => ∃ i, t ∈ v.tables (calls i)) :
    Coherent fun t => ∃ i, t ∈ v.tables (calls i) :=
  Corpus.coherent_tables hdistinguished fun _ ⟨i, ht⟩ => ⟨calls i, ht, fun _ hu => ⟨i, hu⟩⟩

/-- What a search gives that has ended. -/
theorem Sound.result (htables : Coherent tables) (hswept : v.database.IsSwept)
    (hasked : ∀ i, ∀ t ∈ v.tables (calls i), tables t) (hx : Sound v calls tables x) {i : ι}
    {result : Except ExecutionError Response}
    (hresult : v.result? (calls i) (x.met i) = some result) :
    result = v.alone (calls i) ∨ (∃ cause, result = .error (.aggregation cause)) ∨
      result = .error .cancelled ∧ (x.met i).isFlagged = true := by
  rw [Corpus.result?, Option.ite_none_right_eq_some] at hresult
  obtain ⟨-, hresult⟩ := hresult
  cases hresult
  rw [Corpus.alone_eq_value htables (hasked i)]
  rcases (Corpus.search_shared htables (hswept.fits tables) (hasked i) (hx.encounters i)).1 with
    hvalue | ⟨e, he, hexcused⟩
  · exact .inl hvalue
  · refine .inr ?_
    cases e with
    | aggregation cause => exact .inl ⟨cause, he⟩
    | cancelled => exact .inr ⟨he, hexcused⟩
    | _ => cases hexcused

/-- What a search issues stays within its allowance, whoever has used the database before. -/
theorem Sound.length_le (htables : Coherent tables) (hswept : v.database.IsSwept)
    (hasked : ∀ i, ∀ t ∈ v.tables (calls i), tables t) (hx : Sound v calls tables x) (i : ι) :
    (v.encounter (calls i) (x.met i)).2.log.length ≤ v.allowance (calls i) := by
  have hown : Coherent (· ∈ v.tables (calls i)) := fun t u ht hu =>
    htables t u (hasked i t ht) (hasked i u hu)
  refine Corpus.length_log_encounter_le hown (hswept.fits _) ⟨fun session hsession => ?_, ?_, ?_⟩
  · exact (hx.met i session hsession).mono htables (hasked i)
  · exact fun _ => trivial
  · exact fun _ _ _ => trivial

/-- Searches that have all ended leave the database as it was. -/
theorem Sound.database_eq (hx : Sound v calls tables x)
    (hended : ∀ i, (v.result? (calls i) (x.met i)).isSome) : x.database = v.database := by
  obtain ⟨added, hadded, hheld⟩ := hx.held
  have hnone : added = [] := by
    rw [List.eq_nil_iff_forall_not_mem]
    intro m hm
    obtain ⟨i, hi⟩ := hheld m hm
    rw [Corpus.isHeld_past_of_ended (Corpus.next?_of_ended (hended i))] at hi
    cases hi
  rw [hnone, List.nil_append] at hadded
  calc x.database = ⟨x.database.indices, x.database.temporary⟩ := rfl
    _ = ⟨v.database.indices, v.database.temporary⟩ := by rw [hx.fits.indices, hadded]

variable [DecidableEq ι] {turn : Turn ι} {s : Statement}

/-- A table that some search holds is held until this search drops it. -/
theorem isHeld_issue (hs : v.next? (calls turn.search) (x.met turn.search) = some s) {name : String}
    (hne : s ≠ .drop name) (hheld : ∃ i, isHeld name (v.past (calls i) (x.met i)) = true) :
    ∃ i, isHeld name (v.past (calls i) ((x.issue turn s).met i)) = true := by
  obtain ⟨i, hheld⟩ := hheld
  refine ⟨i, ?_⟩
  by_cases hi : i = turn.search
  · subst hi
    rw [met_issue_self, Corpus.past_push hs]
    exact isHeld_cons hne hheld
  · rw [met_issue_of_ne x s hi]
    exact hheld

/-- Dropping a temporary table of a search leaves all other tables. -/
theorem filter_eq_self_of_isSwept {db : Database} (hswept : db.IsSwept) {name : String}
    (hname : IsTemporaryName name) : db.temporary.filter (fun m => m.1 != name) = db.temporary := by
  rw [List.filter_eq_self]
  intro m hm
  rw [bne_iff_ne]
  exact fun h => hswept m hm (h ▸ hname)

/-- Every temporary table that was not there at first is held, whatever a search issues. -/
theorem Sound.held_issue (htables : Coherent tables) (hswept : v.database.IsSwept)
    (hx : Sound v calls tables x) (hs : v.next? (calls turn.search) (x.met turn.search) = some s)
    (hknown : s.IsKnown tables v.database.indices) :
    ∃ added, (x.issue turn s).database.temporary = added ++ v.database.temporary ∧
      ∀ m ∈ added, ∃ i, isHeld m.1 (v.past (calls i) ((x.issue turn s).met i)) = true := by
  obtain ⟨added, hadded, hheld⟩ := hx.held
  have hstay : (∀ name, s ≠ .drop name) → ∀ m ∈ added,
      ∃ i, isHeld m.1 (v.past (calls i) ((x.issue turn s).met i)) = true :=
    fun hne m hm => isHeld_issue hs (hne m.1) (hheld m hm)
  cases hcommand : s.isCommand with
  | false =>
    refine ⟨added, ?_, hstay fun name h => ?_⟩
    · rw [issue, Session.run_of_read hcommand, hadded]
    · rw [h] at hcommand
      cases hcommand
  | true =>
    cases s with
    | drop name =>
      refine ⟨added.filter fun m => m.1 != name, ?_, fun m hm => ?_⟩
      · have hdropped : (x.issue turn (.drop name)).database.temporary =
            x.database.temporary.filter fun m => m.1 != name := rfl
        rw [hdropped, hadded, List.filter_append, filter_eq_self_of_isSwept hswept
          (Corpus.isTemporaryName_of_next? hs name rfl)]
      · obtain ⟨hm, hne⟩ := List.mem_filter.mp hm
        refine isHeld_issue hs (fun h => ?_) (hheld m hm)
        rw [Statement.drop.inj h] at hne
        simp at hne
    | create name selection =>
      have hstay := hstay fun _ h => nomatch h
      obtain ⟨t, view, -, rfl, hrows, hview⟩ := hknown
      let session : Session := ⟨x.database, turn.cancelled⟩
      have hsession : session.database.Fits tables v.database.indices := hx.fits
      rcases hsession.run_create htables hrows hview with ⟨rows, -, -, hrun⟩ | ⟨e, hrun⟩
      · refine ⟨(t.name, rows) :: added, ?_, List.forall_mem_cons.mpr ⟨⟨turn.search, ?_⟩, hstay⟩⟩
        · rw [issue, hrun, List.cons_append, ← hadded]
          rfl
        · -- whoever creates a table holds it
          rw [met_issue_self, Corpus.past_push hs]
          exact isHeld_create.mpr (.inl rfl)
      · refine ⟨added, ?_, hstay⟩
        rw [issue, hrun, hadded]
    | _ => cases hcommand

/-- **What holds of searches is kept by a statement.** -/
theorem Sound.step (htables : Coherent tables) (hswept : v.database.IsSwept)
    (hasked : ∀ i, ∀ t ∈ v.tables (calls i), tables t) (hx : Sound v calls tables x)
    (turn : Turn ι) : Sound v calls tables (x.step v calls turn) := by
  rw [Interleaving.step]
  cases hs : v.next? (calls turn.search) (x.met turn.search) with
  | none => exact hx
  | some s =>
    have hknown := hx.isKnown htables hswept hasked hs
    refine ⟨hx.fits.run htables hknown, fun i session hsession => ?_,
      hx.held_issue htables hswept hs hknown⟩
    by_cases hi : i = turn.search
    · subst hi
      rw [met_issue_self] at hsession
      rcases List.mem_append.mp hsession with hsession | hsession
      · exact hx.met _ session hsession
      · rw [List.mem_singleton.mp hsession]
        exact hx.fits
    · rw [met_issue_of_ne x s hi] at hsession
      exact hx.met i session hsession

/-- **It holds after any turns.** -/
theorem sound_run (htables : Coherent tables) (hswept : v.database.IsSwept)
    (hasked : ∀ i, ∀ t ∈ v.tables (calls i), tables t) (cancelled : ι → Bool)
    (turns : List (Turn ι)) : Sound v calls tables (run v calls cancelled turns) := by
  have hfrom : ∀ x, Sound v calls tables x →
      Sound v calls tables (turns.foldl (Interleaving.step v calls) x) := by
    induction turns with
    | nil => exact fun x hx => hx
    | cons turn turns ih => exact fun x hx => ih _ (hx.step htables hswept hasked turn)
  exact hfrom _ (sound_start hswept cancelled)

/-! ### Enough turns -/

theorem met_step_of_ne {i : ι} (hi : i ≠ turn.search) : (x.step v calls turn).met i = x.met i := by
  rw [Interleaving.step]
  split
  · rfl
  · exact met_issue_of_ne x _ hi

/-- At its turn a search meets the database once more, unless it has ended. -/
theorem ended_or_length_step {i : ι} {n : Nat}
    (hx : v.next? (calls i) (x.met i) = none ∨ (x.met i).ahead.length = n) (turn : Turn ι) :
    v.next? (calls i) ((x.step v calls turn).met i) = none ∨
      ((x.step v calls turn).met i).ahead.length = n + if turn.search = i then 1 else 0 := by
  by_cases hi : turn.search = i
  · subst hi
    rw [if_pos rfl, Interleaving.step]
    cases hs : v.next? (calls turn.search) (x.met turn.search) with
    | none => exact .inl hs
    | some s =>
      have hlength : (x.met turn.search).ahead.length = n :=
        hx.resolve_left fun hnone => nomatch hnone.symm.trans hs
      right
      rw [met_issue_self, Encounters.push, List.length_append, hlength]
      rfl
  · rw [if_neg hi, met_step_of_ne (Ne.symm hi)]
    exact hx

/-- **A search has ended, or it has met the database at each of its turns.** -/
theorem ended_or_length_run (cancelled : ι → Bool) (turns : List (Turn ι)) (i : ι) :
    let e := (run v calls cancelled turns).met i
    v.next? (calls i) e = none ∨ e.ahead.length = turns.countP (·.search = i) := by
  have hfrom : ∀ (x : Interleaving ι) (n : ℕ),
      v.next? (calls i) (x.met i) = none ∨ (x.met i).ahead.length = n →
      let e := (turns.foldl (Interleaving.step v calls) x).met i
      v.next? (calls i) e = none ∨ e.ahead.length = n + turns.countP (·.search = i) := by
    induction turns with
    | nil => exact fun x n hx => hx
    | cons turn turns ih =>
      intro x n hx
      have hrest := ih _ _ (ended_or_length_step hx turn)
      simp only [decide_eq_true_eq, List.countP_cons, Nat.add_assoc, Nat.add_comm] at hrest ⊢
      exact hrest
  have hstart := hfrom (start v cancelled) 0 (.inr rfl)
  rw [Nat.zero_add] at hstart
  exact hstart

/-- **A search ends after as many turns as it is allowed statements**, whatever the others do in
between. -/
theorem searches_end (hswept : v.database.IsSwept)
    (hdistinguished : Distinguished fun t => ∃ i, t ∈ v.tables (calls i)) (cancelled : ι → Bool)
    {turns : List (Turn ι)} {i : ι}
    (hturns : v.allowance (calls i) ≤ turns.countP (·.search = i)) :
    (v.result? (calls i) ((run v calls cancelled turns).met i)).isSome := by
  have hasked : ∀ i, ∀ t ∈ v.tables (calls i), ∃ i, t ∈ v.tables (calls i) :=
    fun i t ht => ⟨i, ht⟩
  have htables := coherent_asked hdistinguished
  have hx := sound_run htables hswept hasked cancelled turns
  have hlength := hx.length_le htables hswept hasked i
  refine Corpus.ended_of_next? ?_
  rcases ended_or_length_run cancelled turns i with hended | hmet
  · exact hended
  · exact Corpus.next?_of_length_le (by omega)

/-! ### Agreement -/

/-- **Searches that run at the same time never give a wrong answer**: whatever the order of
their statements, a search that has ended gives what it gives alone, or it fails on an
aggregation, or it is cancelled and says so.  When all have ended, the database is as it was
before the first of them. -/
theorem searches_agree (hswept : v.database.IsSwept)
    (hdistinguished : Distinguished fun t => ∃ i, t ∈ v.tables (calls i)) (cancelled : ι → Bool)
    (turns : List (Turn ι)) :
    let x := run v calls cancelled turns
    (∀ i result, v.result? (calls i) (x.met i) = some result →
      result = v.alone (calls i) ∨ (∃ cause, result = .error (.aggregation cause)) ∨
        result = .error .cancelled ∧ (x.met i).isFlagged = true) ∧
    ((∀ i, (v.result? (calls i) (x.met i)).isSome) → x.database = v.database) := by
  have hasked : ∀ i, ∀ t ∈ v.tables (calls i), ∃ i, t ∈ v.tables (calls i) :=
    fun i t ht => ⟨i, ht⟩
  have htables := coherent_asked hdistinguished
  intro x
  have hx : Sound v calls (fun t => ∃ i, t ∈ v.tables (calls i)) x :=
    sound_run htables hswept hasked cancelled turns
  exact ⟨fun i result hresult => hx.result htables hswept hasked hresult, hx.database_eq⟩

/-- Two searches for the same text, turn by turn: twelve turns are enough for each of them. -/
theorem searches_agree_identical :
    let calls : Bool → SearchCall := fun _ => {
      body := "\x7b\"aggs\":\x7b\"d\":\x7b\"date_histogram\":\x7b\"field\":\"a\",\"interval\":\"day\"\x7d,\"aggs\":\x7b\"n\":\x7b\"sum\":\x7b\"field\":\"n\"\x7d\x7d\x7d\x7d\x7d\x7d"
      indices := ["p"] }
    let stored : Document := ⟨"t", "1", .obj [("a", .ofInt 5000), ("n", .ofInt 2)]⟩
    let v : Corpus :=
      ⟨{ indices := [("p", [stored])] }, Mappings.empty.put "p" none "a" .date, {}⟩
    let turns : List (Turn Bool) := (List.replicate 12 [⟨false, false⟩, ⟨true, false⟩]).flatten
    let x := run v calls (fun _ => false) turns
    (∀ i, (v.result? (calls i) (x.met i)).isSome) ∧
    (∀ i result, v.result? (calls i) (x.met i) = some result →
      result = v.alone (calls i) ∨ (∃ cause, result = .error (.aggregation cause)) ∨
        result = .error .cancelled ∧ (x.met i).isFlagged = true) ∧
    x.database = v.database := by
  intro calls stored v turns x
  have hswept : v.database.IsSwept := fun _ h => nomatch h
  have htables : (∀ t ∈ v.tables (calls true), ∀ part ∈ t.parts, (Text.utf8 part).length < 2 ^ 64) ∧
      ((v.tables (calls true)).map fun t => tableDigest t.parts).Nodup := by decide +kernel
  have hdistinguished : Distinguished fun t => ∃ i, t ∈ v.tables (calls i) :=
    (Distinguished.of_nodup htables.1 htables.2).mono fun t ⟨_, ht⟩ => ht
  have hallowance : v.allowance (calls true) ≤ 12 := by decide +kernel
  have hturns : ∀ i, turns.countP (·.search = i) = 12 := by decide
  clear_value turns
  have hended : ∀ i, (v.result? (calls i) (x.met i)).isSome := fun i =>
    searches_end hswept hdistinguished (fun _ => false) ((hturns i).symm ▸ hallowance)
  obtain ⟨hagree, hdatabase⟩ := searches_agree hswept hdistinguished (fun _ => false) turns
  exact ⟨hended, hagree, hdatabase hended⟩

end Interleaving

end DocSearch
