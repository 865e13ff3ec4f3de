import DocSearch.Engine.Replay
import DocSearch.Proofs.Engine.Walk
import DocSearch.Proofs.Json.Distinct
import DocSearch.Proofs.Json.Written
import DocSearch.Proofs.Store.Indices
import DocSearch.Server.Config

/-!
# The numbers of a page

How many hits a page passes over and how many it has is said in up to three places: beside the
request, in its body, and in the settings.  The first of these that is not negative counts, where
the body says what is written last.  For the hits that are passed over the settings say zero, but
nothing keeps the number of hits in the settings from being negative itself: a negative limit
then goes into the statement.

## Main definitions

* `Request.Gives` — the integer that a member spells.
* `Request.Says` — what a body says for a number of the page.
* `firstNonNegative` — the number that counts.
* `World.Logs` — all statements that were issued have a property.

## Main results

* `Request.read_page` — the numbers of a request that is read.
* `search_logs` — which statements a search issues.
* `search_page_numbers` — **which numbers a page has that a search asks for**.
* `negative_limit_of_settings` — a negative limit from the settings.
-/

namespace DocSearch

open Run Sql

/-! ### Bodies -/

namespace Request

/-- The integer that a member spells: a number, or a string with blanks around it; `null` spells
none. -/
inductive Gives : Json → Option Int64 → Prop
  /-- A number. -/
  | number (i : Int64) : Gives (.num (.int i.toInt)) (some i)
  /-- Digits in a string, with or without a sign. -/
  | text {before sign digits after : List Char} {i : Int64}
      (hbefore : before.all Text.isBlank) (hafter : after.all Text.isBlank)
      (hsign : sign = [] ∨ sign = ['+'] ∨ sign = ['-'])
      (hdigits : digits ≠ [] ∧ digits.all Char.isDigit)
      (hvalue : i.toInt = if sign = ['-'] then -(digitsValue digits : Int) else digitsValue digits) :
      Gives (.str (String.ofList (before ++ (sign ++ digits) ++ after))) (some i)
  /-- The word `null`. -/
  | null : Gives .null none

/-- The members in the text of a body, with repeated names; a body of blanks has none. -/
def writtenMembers? (body : String) : Option (List (String × Json)) :=
  if Text.isAllBlank body then some [] else Json.writtenMembers? body

/-- What a body says for a number of the page: what the last member of this name spells, and
nothing if there is none. -/
def Says (body key : String) (said : Option Int64) : Prop :=
  ∃ written, writtenMembers? body = some written ∧
    ((key ∉ Members.names written ∧ said = none) ∨
      ∃ before v after, written = before ++ (key, v) :: after ∧ key ∉ Members.names after ∧
        Gives v said)

theorem toInt_of_int64? {n : Int} {i : Int64} (h : int64? n = some i) : i.toInt = n := by
  unfold int64? at h
  split at h
  · next hrange =>
    cases h
    have hleast : Int64.minValue.toInt = -2 ^ 63 := rfl
    have hgreatest : Int64.maxValue.toInt = 2 ^ 63 - 1 := rfl
    exact Int64.toInt_ofInt_of_le (by omega) (by omega)
  · cases h

/-- What a trimmed text has lost is blanks. -/
theorem exists_trim (s : String) : ∃ before after : List Char, before.all Text.isBlank ∧
    after.all Text.isBlank ∧ s.toList = before ++ (Text.trim s).toList ++ after := by
  let rest := s.toList.dropWhile Text.isBlank
  refine ⟨s.toList.takeWhile Text.isBlank, (rest.reverse.takeWhile Text.isBlank).reverse,
    List.all_takeWhile, by rw [List.all_reverse]; exact List.all_takeWhile, ?_⟩
  have hrest : rest = (rest.reverse.dropWhile Text.isBlank).reverse ++
      (rest.reverse.takeWhile Text.isBlank).reverse := by
    rw [← List.reverse_append, List.takeWhile_append_dropWhile, List.reverse_reverse]
  rw [Text.trim, String.toList_ofList, List.append_assoc, ← hrest, List.takeWhile_append_dropWhile]

/-- A sign is one character or none. -/
theorem exists_takeSign (cs : List Char) : ∃ sign : List Char,
    (sign = [] ∨ sign = ['+'] ∨ sign = ['-']) ∧ cs = sign ++ (takeSign cs).2 ∧
      ((takeSign cs).1 = true ↔ sign = ['-']) := by
  unfold takeSign
  split
  · exact ⟨['-'], by simp⟩
  · exact ⟨['+'], by simp⟩
  · exact ⟨[], by simp⟩

theorem exists_of_readInt {cs : List Char} {n : Int} (h : readInt cs = some n) :
    ∃ sign digits : List Char, (sign = [] ∨ sign = ['+'] ∨ sign = ['-']) ∧
      (digits ≠ [] ∧ digits.all Char.isDigit) ∧ cs = sign ++ digits ∧
      n = if sign = ['-'] then -(digitsValue digits : Int) else digitsValue digits := by
  obtain ⟨sign, hsign, hsplit, hnegative⟩ := exists_takeSign cs
  unfold readInt at h
  generalize takeSign cs = taken at h hsplit hnegative
  obtain ⟨negative, digits⟩ := taken
  simp only at h
  split at h
  · cases h
  next hdigits =>
  cases h
  rw [Bool.or_eq_true, not_or, Bool.not_eq_true, List.isEmpty_eq_false_iff, Bool.not_eq_true,
    Bool.not_eq_false'] at hdigits
  exact ⟨sign, digits, hsign, hdigits, hsplit, by simp only [hnegative]⟩

theorem gives_of_readInt64 {s : String} {i : Int64} (h : readInt64 (Text.trim s) = some i) :
    Gives (.str s) (some i) := by
  obtain ⟨n, hn, hi⟩ := Option.bind_eq_some_iff.mp h
  obtain ⟨before, after, hbefore, hafter, hs⟩ := exists_trim s
  obtain ⟨sign, digits, hsign, hdigits, hsplit, hvalue⟩ := exists_of_readInt hn
  rw [← String.ofList_toList (s := s), hs, hsplit]
  exact .text hbefore hafter hsign hdigits ((toInt_of_int64? hi).trans hvalue)

/-- A number of the page is what its member spells, or the default if this is negative or
nothing. -/
theorem gives_of_pageNumber {key : String} {default n : Int64} {v : Json}
    (h : pageNumber key default v = .ok n) :
    ∃ said, Gives v said ∧ n = (said.filter (0 ≤ ·)).getD default := by
  unfold pageNumber at h
  split at h
  case h_2 => cases h
  next i hi =>
  cases h
  have hfilter : (if i < 0 then default else i) = ((some i).filter (0 ≤ ·)).getD default := by
    by_cases hneg : i < 0
    · rw [if_pos hneg, Option.filter_some, if_neg (by simpa using hneg)]
      rfl
    · rw [if_neg hneg, Option.filter_some, if_pos (by simpa using hneg)]
      rfl
  cases v with
  | num m =>
    cases m with
    | int m =>
      have hvalue := toInt_of_int64? hi
      exact ⟨some i, hvalue ▸ .number i, hfilter⟩
    | real x => cases hi
  | str s => exact ⟨some i, gives_of_readInt64 hi, hfilter⟩
  | null =>
    cases hi
    exact ⟨none, .null, ite_self _⟩
  | bool | arr | obj => cases hi

variable {options : RequestOptions}

/-- What a member of the body writes into the numbers of the page. -/
theorem member_page {p p' : Draft} {m : String × Json} (h : member options p m = .ok p') :
    (if m.1 = "from" then pageNumber "from" 0 m.2 = .ok p'.request.offset
      else p'.request.offset = p.request.offset) ∧
    if m.1 = "size" then pageNumber "size" options.defaultSize m.2 = .ok p'.request.size
      else p'.request.size = p.request.size := by
  obtain ⟨key, v⟩ := m
  simp only [member] at h
  split at h
  · next hkey =>
    subst hkey
    obtain ⟨_, -, h⟩ := Steps.bind_eq_ok.mp h
    cases h
    exact ⟨rfl, rfl⟩
  split at h
  · next hkey =>
    split at h
    · cases h
    obtain ⟨_, -, h⟩ := Steps.bind_eq_ok.mp h
    cases h
    rcases hkey with rfl | rfl <;> exact ⟨rfl, rfl⟩
  split at h
  · next hkey =>
    subst hkey
    obtain ⟨_, -, h⟩ := Steps.bind_eq_ok.mp h
    cases h
    exact ⟨rfl, rfl⟩
  split at h
  · next hkey =>
    subst hkey
    obtain ⟨n, hn, h⟩ := Steps.bind_eq_ok.mp h
    cases h
    exact ⟨hn, rfl⟩
  split at h
  · next hkey =>
    subst hkey
    obtain ⟨n, hn, h⟩ := Steps.bind_eq_ok.mp h
    cases h
    exact ⟨rfl, hn⟩
  next hfrom hsize =>
  split at h
  · cases h
    rw [if_neg hfrom, if_neg hsize]
    exact ⟨rfl, rfl⟩
  · cases h

/-- A number that each member either leaves or writes, if it has its name, is written once by
members with names of their own. -/
theorem number_of_members {get : Request → Int64} {key : String} {default : Int64}
    (hget : ∀ {p p' : Draft} {m : String × Json}, member options p m = .ok p' →
      if m.1 = key then pageNumber key default m.2 = .ok (get p'.request)
      else get p'.request = get p.request)
    {members : List (String × Json)} (hnames : (Members.names members).Nodup) {p p' : Draft}
    (h : members.foldlM (member options) p = .ok p') :
    match members.lookup key with
    | none => get p'.request = get p.request
    | some v => pageNumber key default v = .ok (get p'.request) := by
  induction members generalizing p with
  | nil =>
    cases h
    rfl
  | cons m members ih =>
    obtain ⟨name, v⟩ := m
    obtain ⟨hname, hnames⟩ := List.nodup_cons.mp hnames
    rw [List.foldlM_cons, Steps.bind_eq_ok] at h
    obtain ⟨between, hfirst, hrest⟩ := h
    have hfirst := hget hfirst
    have hrest := ih hnames hrest
    rw [Members.lookup_cons]
    by_cases hkey : name = key
    · -- the name does not come again
      subst hkey
      have hnone : members.lookup name = none := by
        rw [← Option.not_isSome_iff_eq_none, Members.isSome_lookup]
        exact hname
      rw [hnone] at hrest
      rw [if_pos rfl] at hfirst ⊢
      simp only at hrest ⊢
      rw [hrest]
      exact hfirst
    · rw [if_neg hkey] at hfirst
      rw [if_neg (Ne.symm hkey), ← hfirst]
      exact hrest

/-- A number that the members of an object write is what the body says. -/
theorem says_of_members (get : Request → Int64) {key : String} {default : Int64}
    (hget : ∀ {p p' : Draft} {m : String × Json}, member options p m = .ok p' →
      if m.1 = key then pageNumber key default m.2 = .ok (get p'.request)
      else get p'.request = get p.request)
    {body : String} (hbody : Text.isAllBlank body = false) {members : List (String × Json)}
    (hmembers : Json.read body = some (.obj members)) {p p' : Draft} (hp : get p.request = default)
    (h : members.foldlM (member options) p = .ok p') :
    ∃ said, Says body key said ∧ get p'.request = (said.filter (0 ≤ ·)).getD default := by
  obtain ⟨hnames, -⟩ := Json.distinct_obj_iff.mp (Json.distinct_of_read hmembers)
  have hnumber := number_of_members hget hnames h
  obtain ⟨written, hwritten, rfl⟩ := Json.read_eq_obj hmembers
  have hwritten : writtenMembers? body = some written := by
    rw [writtenMembers?, hbody]
    exact hwritten
  rw [Members.lookup_putAll_nil] at hnumber
  rcases Members.last_cases written key with ⟨hnone, hname⟩ | ⟨before, v, after, hsplit, hname, hlast⟩
  · rw [hnone] at hnumber
    exact ⟨none, ⟨written, hwritten, .inl ⟨hname, rfl⟩⟩, hnumber.trans hp⟩
  · rw [hlast] at hnumber
    obtain ⟨said, hgives, hvalue⟩ := gives_of_pageNumber hnumber
    exact ⟨said, ⟨written, hwritten, .inr ⟨before, v, after, hsplit, hname, hgives⟩⟩, hvalue⟩

/-- **The numbers of a request that is read**: what its body says, or the default if this is
negative or nothing. -/
theorem read_page {body : String} {r : Request} (h : read options body = .ok r) :
    (∃ said, Says body "size" said ∧ r.size = (said.filter (0 ≤ ·)).getD options.defaultSize) ∧
    ∃ said, Says body "from" said ∧ r.offset = (said.filter (0 ≤ ·)).getD 0 := by
  rw [read] at h
  cases hbody : Text.isAllBlank body with
  | true =>
    rw [hbody, if_pos rfl] at h
    cases h
    have hsays : ∀ key, Says body key none := fun key =>
      ⟨[], by rw [writtenMembers?, hbody]; rfl, .inl ⟨List.not_mem_nil, rfl⟩⟩
    exact ⟨⟨none, hsays "size", rfl⟩, none, hsays "from", rfl⟩
  | false =>
    rw [hbody, if_neg Bool.false_ne_true] at h
    split at h
    · cases h
    · next members hmembers =>
      obtain ⟨p, hp, rfl⟩ := Steps.map_eq_ok.mp h
      exact ⟨says_of_members Request.size (fun h => (member_page h).2) hbody hmembers rfl hp,
        says_of_members Request.offset (fun h => (member_page h).1) hbody hmembers rfl hp⟩
    · cases h

end Request

/-! ### Statements of a search -/

variable {σ : Type} {b : Backend σ} {P : Statement → Prop}

/-- All statements that were issued have a property. -/
def World.Logs (P : Statement → Prop) (w : World σ) : Prop := ∀ i ∈ w.log, P i.statement

theorem World.Logs.cons {w : World σ} (hw : w.Logs P) {i : Issued} (hi : P i.statement) (state : σ)
    (arena : Arena) : World.Logs P { w with state, arena, log := i :: w.log } :=
  List.forall_mem_cons.mpr ⟨hi, hw⟩

theorem issue_logs {s : Statement} (hs : P s) : Keeps (World.Logs P) (issue b s) :=
  fun w => ⟨rfl, fun hw => hw.cons (i := ⟨s, _⟩) hs _ w.arena⟩

/-- A search looks for tables without a statement. -/
theorem resolveTargets_logs (indices : List String) :
    Keeps (World.Logs P) (resolveTargets b indices) := fun _ =>
  KeepsAt.read_bind (Keeps.bind (Keeps.lift _) (fun _ => Keeps.lift _) _)

/-- The statements of a walk and of its clean-up read no page. -/
theorem walk_logs (hread : ∀ {scope s}, WalkRead scope s → P s) (hdrop : ∀ name, P (.drop name))
    (hcreate : ∀ name selection, P (.create name selection)) :
    WalkInvariant b (World.Logs P) where
  read := fun hs hw => (issue_logs (hread hs) _).2 hw
  fill := by
    intro w selection parts _ hw
    rcases materialize_cases b (tempTableName parts) selection w with
      ⟨-, h⟩ | ⟨-, state, e, h⟩ | ⟨-, state, failure, h⟩
    · rw [h]
      exact hw
    · rw [h]
      exact hw.cons (hdrop _) state _
    · rw [h]
      exact List.forall_mem_cons.mpr ⟨hcreate _ _, List.forall_mem_cons.mpr ⟨hdrop _, hw⟩⟩
  enter := fun _ hw => hw
  leave := fun _ hafter => hafter

/-- **Which statements a search issues**: those of its walk and its clean-up, the number of its
hits, and a page of them with the numbers that were asked for. -/
theorem search_logs {mappings : Mappings} {options : RequestOptions} {call : SearchCall}
    {r : Request} (hr : Request.read options call.body = .ok r)
    (hwalk : ∀ {scope s}, WalkRead scope s → P s) (hdrop : ∀ name, P (.drop name))
    (hcreate : ∀ name selection, P (.create name selection)) (hcount : ∀ source, P (.count source))
    (hpage : pageOverride call.size r.size ≠ 0 → ∀ source, P (.page source r.sort
      (pageOverride call.size r.size) (pageOverride call.offset r.offset))) :
    Keeps (World.Logs P) (search b mappings options call) := by
  have hread : readRequest options call.body = .ok r := by
    rw [readRequest, hr]
    rfl
  have hfetch : ∀ (c : SearchContext) (condition : Option Condition), Keeps (World.Logs P)
      (fetchHits b c condition r.sort (pageOverride call.size r.size)
        (pageOverride call.offset r.offset)) := by
    intro c condition
    rw [fetchHits]
    refine Keeps.bind (issue_logs (hcount _)) fun rows => ?_
    split
    · exact Keeps.pure _
    · next hnone =>
      refine Keeps.bind (issue_logs (hpage (not_or.mp hnone).1 _)) fun page => ?_
      exact Keeps.bind (Keeps.lift _) fun hits => Keeps.pure _
  -- nothing is issued until the request is run
  rw [search, hread]
  refine fun w => (Keeps.lift (Except.ok r) w).bind fun r' after h _ => ?_
  obtain rfl : r = r' := by cases h; rfl
  refine Keeps.bind (resolveTargets_logs call.indices) (fun targets => ?_) after
  refine Keeps.bind (fun w => ?_) fun found => ?_
  · exact KeepsAt.withScope id (runRequest_keeps (walk_logs hwalk hdrop hcreate)
      (fun _ hw => (issue_logs (hdrop _) _).2 hw) fun _ _ hw => hw) fun _ _ hafter => hafter
  · refine Keeps.bind checkCancelled_keeps fun _ => ?_
    exact Keeps.bind (fun w => KeepsAt.mapError (hfetch _ _ w)) fun hits => Keeps.pure _

/-! ### The numbers that count -/

/-- The first number that was said and is not negative, or else the default. -/
def firstNonNegative (said : List (Option Int64)) (default : Int64) : Int64 :=
  (said.findSome? (·.filter (0 ≤ ·))).getD default

theorem firstNonNegative_nonneg {said : List (Option Int64)} {default : Int64}
    (h : 0 ≤ default) : 0 ≤ firstNonNegative said default := by
  rw [firstNonNegative]
  cases hfound : said.findSome? (·.filter (0 ≤ ·)) with
  | none => exact h
  | some n =>
    obtain ⟨asked, -, hn⟩ := List.exists_of_findSome?_eq_some hfound
    exact of_decide_eq_true (Option.filter_eq_some_iff.mp hn).2

/-- A number beside the request comes before the one in its body. -/
theorem pageOverride_eq {asked said : Option Int64} {default fromBody : Int64}
    (h : fromBody = (said.filter (0 ≤ ·)).getD default) :
    pageOverride asked fromBody = firstNonNegative [asked, said] default := by
  rw [pageOverride, firstNonNegative, List.findSome?_cons, List.findSome?_singleton, h]
  cases asked.filter (0 ≤ ·) <;> rfl

/-- The numbers of a statement that reads a page. -/
def Statement.limits? : Statement → Option (Int64 × Int64)
  | .page _ _ size offset => some (size, offset)
  | _ => none

/-- The text of a page ends with its numbers. -/
theorem exists_sql_of_limits (d : Dialect) {s : Statement} {size offset : Int64}
    (h : s.limits? = some (size, offset)) : ∃ before, (s.render d).sql =
      before ++ (" LIMIT " ++ toString size.toInt ++ " OFFSET " ++ toString offset.toInt) := by
  unfold Statement.limits? at h
  split at h
  case h_2 => cases h
  next source sort _ _ =>
  cases h
  refine ⟨"SELECT sift_index, id, type, doc FROM " ++ (source.render d).sql ++
    (if (SortClause.orderBy d sort).isEmpty then "" else " " ++ SortClause.orderBy d sort), ?_⟩
  simp only [Statement.render, Statement.pageTail, Fragment.sql_append, Fragment.raw,
    String.append_assoc]

/-- **Which numbers a page has that a search asks for.**  Each is the first one that is not
negative of the number beside the request and of what its body says last, or else the default:
zero for the hits that are passed over, and what the settings say for the number of hits.  So it
is not negative unless the settings say so, and no page is asked for if it is zero. -/
theorem search_page_numbers (b : Backend σ) (mappings : Mappings) (config : Config)
    (call : SearchCall) (state : σ) {r : Request}
    (hr : Request.read config.requestOptions call.body = .ok r) :
    ∃ saidSize saidOffset,
      Request.Says call.body "size" saidSize ∧ Request.Says call.body "from" saidOffset ∧
      let size := firstNonNegative [call.size, saidSize] config.defaultSize
      let offset := firstNonNegative [call.offset, saidOffset] 0
      0 ≤ offset ∧ (0 ≤ config.defaultSize → 0 ≤ size) ∧
      ∀ i ∈ ((search b mappings config.requestOptions call).within (World.start state)).2.log,
        ∀ n m, i.statement.limits? = some (n, m) → n = size ∧ m = offset ∧ size ≠ 0 ∧
          ∃ before, (i.statement.render b.dialect).sql =
            before ++ (" LIMIT " ++ toString size.toInt ++ " OFFSET " ++ toString offset.toInt) := by
  obtain ⟨⟨saidSize, hsaidSize, hsize⟩, saidOffset, hsaidOffset, hoffset⟩ := Request.read_page hr
  refine ⟨saidSize, saidOffset, hsaidSize, hsaidOffset, firstNonNegative_nonneg (by decide),
    firstNonNegative_nonneg, fun i hi => ?_⟩
  let P (s : Statement) : Prop := ∀ n m, s.limits? = some (n, m) →
    n = pageOverride call.size r.size ∧ m = pageOverride call.offset r.offset ∧
      pageOverride call.size r.size ≠ 0
  have hsearch : Keeps (World.Logs P) (search b mappings config.requestOptions call) := by
    refine search_logs hr ?_ (fun _ => nofun) (fun _ _ => nofun) (fun _ => nofun) ?_
    · rintro scope s (_ | _ | _ | _) <;> exact nofun
    · rintro hne source _ _ ⟨⟩
      exact ⟨rfl, rfl, hne⟩
  have hlog := (hsearch (World.start state)).2 (fun _ h => nomatch h) i hi
  have hsize : r.size = (saidSize.filter (0 ≤ ·)).getD config.defaultSize := hsize
  rw [← pageOverride_eq hsize, ← pageOverride_eq hoffset]
  intro n m hpage
  obtain ⟨rfl, rfl, hne⟩ := hlog n m hpage
  exact ⟨rfl, rfl, hne, exists_sql_of_limits b.dialect hpage⟩

/-- A size that is written twice, and a negative number of hits to pass over beside the request. -/
theorem search_page_numbers_repeated :
    let b := Replay.backend .sqlite
    let config : Config := {}
    let call : SearchCall := {
      body := "\x7b\"size\": \"7\", \"from\": \" +2 \", \"size\": 3\x7d"
      indices := ["p"]
      offset := some (-4) }
    let log := ((search b .empty config.requestOptions call).within
      (World.start { indices := ["p"] })).2.log
    (Request.read config.requestOptions call.body).isOk = true ∧
    log.filterMap (·.statement.limits?) = [(3, 2)] ∧
    ∀ i ∈ log, ∀ n m, i.statement.limits? = some (n, m) → 0 ≤ n ∧ 0 ≤ m := by
  intro b config call log
  have hread : (Request.read config.requestOptions call.body).isOk = true := by decide +kernel
  refine ⟨hread, by decide +kernel, fun i hi n m hpage => ?_⟩
  cases hr : Request.read config.requestOptions call.body with
  | error e =>
    rw [hr] at hread
    cases hread
  | ok r =>
    obtain ⟨saidSize, saidOffset, -, -, hoffset, hsize, hlog⟩ :=
      search_page_numbers b .empty config call { indices := ["p"] } hr
    obtain ⟨rfl, rfl, -⟩ := hlog i hi n m hpage
    exact ⟨hsize (by decide), hoffset⟩

/-- **A negative limit from the settings.**  Nothing checks the number of hits in the settings,
which goes into the statement if the request gives none, or a negative one. -/
theorem negative_limit_of_settings :
    let settings := Json.obj [("search", .obj [("default_size", .ofInt (-1))])]
    ∃ config, Config.ofJson? settings = some config ∧
      ∀ body ∈ ["", "\x7b\"size\": -5\x7d"],
        ((search (Replay.backend .sqlite) .empty config.requestOptions
            { body, indices := ["p"] }).within
          (World.start { indices := ["p"] })).2.log.filterMap (·.statement.limits?) = [(-1, 0)] :=
  ⟨{ defaultSize := -1 }, rfl, by decide +kernel⟩

end DocSearch
