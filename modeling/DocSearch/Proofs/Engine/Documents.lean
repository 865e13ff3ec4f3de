import DocSearch.Proofs.Engine.Hits
import DocSearch.Proofs.Store.History
import DocSearch.Proofs.Store.WholePage
import Mathlib.Data.List.Dedup

/-!
# The documents that a search shows

Calls that create indices and store documents leave a database that behaves like a map: it
says whether a document is new, lists the indices that were named, and a search for
everything in an index shows what was stored there last under each key.  The text of a
document is read again for a hit, so what was stored has to be what its text says.

## Main definitions

* `StoreCall.keys` — the keys under which calls store documents in an index.
* `StoreCall.ShownBy` — hits show what calls have stored in an index.
* `SearchCall.AsksForAll` — a search for everything in an index, on a page that is long
  enough.
* `Database.Refines` — a database behaves like the map that calls describe.

## Main results

* `Database.Follows.search_shows` — a search for everything shows what was stored.
* `Database.Follows.search_succeeds` — it does not fail without a reason.
* `Database.refines_map` — **a database refines a map**.
-/

namespace DocSearch

open Members Steps Sql

/-! ### Hits of a whole index -/

/-- The hit that shows a document of an index. -/
def Hit.ofDocument (index : String) (d : Document) : Hit := ⟨index, d.docType, d.id, d.body⟩

theorem Hit.ofRow_shownRow {t : Target} {d : Document} (h : Json.read d.body.print = some d.body) :
    Hit.ofRow (Database.shownRow t d) = .ok (Hit.ofDocument t.index d) := by
  have hrow := ofRow_pageRow ⟨t.index, d⟩
  rw [h] at hrow
  exact hrow

namespace Database

variable {db : Database} {t : Target} {docs : List Document} {c : SearchContext}
  {sort : List SortClause} {size offset : Int64}

/-- The hits of a page that is long enough are those of all documents of an index. -/
theorem hits_perm (hdocs : db.indexTable? t.table = some docs)
    (hread : ∀ d ∈ docs, Json.read d.body.print = some d.body)
    (htargets : c.targets = [t]) (htypes : c.types = []) (hoffset : offset.toInt.toNat = 0)
    (hsize : ∀ n ∈ pageEnd size offset, docs.length ≤ n) {hits : Hits}
    (h : db.hits c none sort size offset = .ok hits) :
    hits.hits.Perm (docs.map (Hit.ofDocument t.index)) := by
  rcases hits_eq_ok h with ⟨hnone, hempty⟩ | ⟨rows, hrows, hshown⟩
  · -- a page without any room is long enough for an index without documents
    have hzero : size = 0 := hnone.resolve_right (by rw [htargets]; simp)
    have hlength : docs.length ≤ 0 := by
      have hroom := hsize (offset.toInt.toNat + size.toInt.toNat) (by rw [hzero]; rfl)
      rwa [hoffset, hzero] at hroom
    rw [hempty, List.length_eq_zero_iff.mp (Nat.le_zero.mp hlength)]
    exact .nil
  · rw [htargets, htypes] at hrows
    have hperm := (read_whole_page hdocs hoffset hsize hrows).map Hit.ofRow
    have hhits : docs.map (Hit.ofRow ∘ shownRow t) =
        (docs.map (Hit.ofDocument t.index)).map .ok := by
      rw [List.map_map]
      exact List.map_congr_left fun d hd => Hit.ofRow_shownRow (hread d hd)
    rw [mapM_eq_ok.mp hshown, List.map_map, hhits] at hperm
    exact (List.map_perm_map_iff fun _ _ => Except.ok.inj).mp hperm

/-- Neither the count nor a page of one index is too large, unless it is ordered by too
much. -/
theorem refusal?_page (hterms : sort.length ≤ maxOrderTerms) :
    (Statement.page (.documents [t] [] none) sort size offset).refusal? = none := by
  have hfew : ¬ maxOrderTerms < sort.length := Nat.not_lt.mpr hterms
  simp [Statement.refusal?, Statement.source?, Source.tables, Source.extents, Statement.orderTerms,
    Statement.joinedTo, Extent.chained, maxTables, maxNesting, hfew]

/-- All documents of an index can be counted and shown, if they can be sorted. -/
theorem hits_total (hkeyed : db.IsKeyed) (hdocs : db.indexTable? t.table = some docs)
    (hread : ∀ d ∈ docs, Json.read d.body.print = some d.body)
    (hsort : ∀ d ∈ docs, ∀ s ∈ sort, ∃ cell, d.fieldValue s.field = .ok cell)
    (hterms : sort.length ≤ maxOrderTerms) (htargets : c.targets = [t]) (htypes : c.types = []) :
    ∃ hits, db.hits c none sort size offset = .ok hits := by
  have hcount : ∃ rows, db.answer (.count (.documents [t] [] none)) = .ok rows := by
    have hcheck : ∀ t' ∈ [t], db.CanCheck (fun _ _ => True) (sourceChecks [] none ++ []) t' :=
      List.forall_mem_singleton.mpr ⟨docs, hdocs, fun _ hcheck => nomatch hcheck⟩
    -- only several targets could be too many for one statement
    have hfailure : (db.candidates { columns := 1 } [] [] (.documents [t] [] none)).failure = none :=
      candidates_total hkeyed hcheck fun hmany => absurd hmany (Nat.lt_irrefl 1)
    have hanswer : db.answer (.count (.documents [t] [] none)) =
        db.read (.count (.documents [t] [] none)) := rfl
    exact ⟨_, by rw [hanswer, read, Found.toExcept_total hfailure]; rfl⟩
  have hpage : ∃ rows shown, db.answer (.page (.documents [t] [] none) sort size offset) = .ok rows ∧
      rows.mapM Hit.ofRow = .ok shown := by
    obtain ⟨rows, hrows⟩ := read_page_total hdocs hsort size offset
    -- a row fails to be shown only if its text is not JSON, and these are printed documents
    have hshown : ∀ row ∈ rows, ∃ hit, Hit.ofRow row = .ok hit := by
      intro row hrow
      obtain ⟨⟨index, d⟩, ⟨t', ht', hindex, hd⟩, -, rfl⟩ := read_page hrows row hrow
      rw [List.mem_singleton.mp ht', hdocs] at hd
      rw [ofRow_pageRow, hread d hd]
      exact ⟨_, rfl⟩
    obtain ⟨shown, hmap⟩ := mapM_total hshown
    refine ⟨rows, shown, ?_, hmap⟩
    rw [answer, refusal?_page hterms]
    exact hrows
  obtain ⟨counted, hcounted⟩ := hcount
  obtain ⟨rows, shown, hrows, hmap⟩ := hpage
  rw [hits, htargets, htypes, hcounted, hrows]
  simp only [Except.mapError, bind, Except.bind, hmap]
  split
  · exact ⟨_, rfl⟩
  · exact ⟨_, rfl⟩

end Database

/-! ### What calls have stored -/

namespace StoreCall

variable {calls : List StoreCall} {index : String}

/-- The key under which a call stores a document in an index. -/
def key? (index : String) : StoreCall → Option (String × String)
  | create _ => none
  | put i d => if i = index then some (d.docType, d.id) else none

/-- The keys under which calls store documents in an index. -/
def keys (calls : List StoreCall) (index : String) : List (String × String) :=
  (calls.filterMap (key? index)).dedup

/-- What a call stores is what its text says. -/
def IsReadable : StoreCall → Prop
  | create _ => True
  | put _ d => Json.read d.body.print = some d.body

/-- Hits show what calls have stored in an index: under each key what was stored there last,
and nothing else. -/
structure ShownBy (calls : List StoreCall) (index : String) (hits : List Hit) : Prop where
  /-- Nothing of another index is shown. -/
  inIndex : ∀ hit ∈ hits, hit.index = index
  /-- No key is shown twice. -/
  nodup : (hits.map fun hit => (hit.docType, hit.id)).Nodup
  /-- What was stored last is shown. -/
  mem : ∀ docType id source, ⟨index, docType, id, source⟩ ∈ hits ↔
    stored? calls index docType id = some source

/-- What is stored was stored by a call. -/
theorem exists_put_of_stored? {docType id : String} {body : Json}
    (h : stored? calls index docType id = some body) : .put index ⟨docType, id, body⟩ ∈ calls := by
  rw [stored?] at h
  split at h
  case isFalse => cases h
  case isTrue =>
    obtain ⟨call, hcall, hbody⟩ := List.exists_of_findSome?_eq_some h
    cases call with
    | create i => cases hbody
    | put i d =>
      rw [body?] at hbody
      split at hbody
      case isFalse => cases hbody
      case isTrue hkey =>
        obtain ⟨rfl, rfl, rfl⟩ := hkey
        cases hbody
        exact List.mem_reverse.mp hcall

variable {docs : List Document}

/-- An index holds no more documents than there are keys. -/
theorem length_le_keys (hkeyed : KeyedRows docs)
    (hdocs : ∀ d ∈ docs, stored? calls index d.docType d.id = some d.body) :
    docs.length ≤ (keys calls index).length := by
  have hsubset : docs.map (fun d => (d.docType, d.id)) ⊆ keys calls index := by
    refine List.forall_mem_map.mpr fun d hd => List.mem_dedup.mpr (List.mem_filterMap.mpr ?_)
    exact ⟨_, exists_put_of_stored? (hdocs d hd), if_pos rfl⟩
  have hlength := (hkeyed.keys_nodup.subperm hsubset).length_le
  rwa [List.length_map] at hlength

/-- Hits that show all documents of an index show what was stored there. -/
theorem shownBy_of_perm (hkeyed : KeyedRows docs)
    (hdocs : ∀ d : Document, d ∈ docs ↔ stored? calls index d.docType d.id = some d.body)
    {hits : List Hit} (hperm : hits.Perm (docs.map (Hit.ofDocument index))) :
    ShownBy calls index hits where
  inIndex := fun hit hhit => by
    obtain ⟨d, -, rfl⟩ := List.mem_map.mp (hperm.subset hhit)
    rfl
  nodup := by
    refine (hperm.map _).nodup_iff.mpr ?_
    rw [List.map_map]
    exact hkeyed.keys_nodup
  mem := fun docType id source => by
    rw [hperm.mem_iff, List.mem_map, ← hdocs ⟨docType, id, source⟩]
    constructor
    · rintro ⟨d, hd, hhit⟩
      cases hhit
      exact hd
    · exact fun hd => ⟨_, hd, rfl⟩

end StoreCall

/-! ### Searches for everything -/

/-- A search for everything in an index, on a page that has room for what calls have stored
there. -/
structure SearchCall.AsksForAll (call : SearchCall) (r : Request) (calls : List StoreCall)
    (index : String) : Prop where
  /-- It is about this index. -/
  indices : call.indices = [index]
  /-- It is about all types. -/
  types : call.types = []
  /-- It asks nothing of the documents. -/
  query : r.predicate.compile = .ok none
  /-- No hit is passed over. -/
  offset : (pageOverride call.offset r.offset).toInt ≤ 0
  /-- The page has room for all keys. -/
  size : ∀ n ∈ pageEnd (pageOverride call.size r.size) (pageOverride call.offset r.offset),
    (StoreCall.keys calls index).length ≤ n

namespace Database.Follows

variable {db : Database} {calls : List StoreCall} {index : String} {mappings : Mappings}
  {options : RequestOptions} {call : SearchCall} {r : Request}

/-- The documents of an index that was named. -/
theorem documents?_eq_some (h : db.Follows calls) (hnamed : StoreCall.Named calls index) :
    ∃ docs, db.documents? index = some docs ∧
      ∀ d : Document, d ∈ docs ↔ StoreCall.stored? calls index d.docType d.id = some d.body := by
  obtain ⟨docs, hdocs⟩ := Option.isSome_iff_exists.mp
    (Database.isSome_documents?.mpr ((h.mem_names index).mpr hnamed))
  refine ⟨docs, hdocs, fun d => ?_⟩
  rw [← h.mem_documents, hdocs]
  rfl

/-- The only target of a search in an index that was named. -/
theorem targets_eq_ok (h : db.Follows calls) (hnamed : StoreCall.Named calls index) :
    db.targets [index] = .ok [⟨index, Index.tablePrefix ++ index⟩] := by
  have hone : meansAllIndices [index] = false := by
    rw [meansAllIndices, List.isEmpty_cons, Bool.false_or, List.any_cons, List.any_nil,
      Bool.or_false, Bool.or_eq_false_iff, beq_eq_false_iff_ne, beq_eq_false_iff_ne]
    constructor <;>
    · rintro rfl
      exact absurd hnamed.1 (by decide)
  have htable := tableFor_of_valid db hnamed.1
  rw [if_pos ((h.mem_names index).mpr hnamed)] at htable
  rw [targets, hone]
  simp only [Bool.false_eq_true, if_false, targetsFor, List.foldlM_cons, List.foldlM_nil,
    targetFor, htable]
  rfl

/-- What a search for everything in an index comes to before it issues any statement. -/
theorem prepare_eq (h : db.Follows calls) (hnamed : StoreCall.Named calls index)
    (hr : readRequest options call.body = .ok r) (hasks : call.AsksForAll r calls index) :
    prepare Session.backend options call ⟨db, false⟩ =
      .ok ⟨r, [⟨index, Index.tablePrefix ++ index⟩], none⟩ := by
  refine prepare_eq_ok.mpr ⟨hr, ?_, hasks.query⟩
  rw [Session.resolveTargets_result, hasks.indices, h.targets_eq_ok hnamed]

/-- **A search for everything in an index shows what was stored there**, however it is
sorted and whatever it aggregates, if it comes to a response. -/
theorem search_shows (h : db.Follows calls) (hreadable : ∀ c ∈ calls, c.IsReadable)
    (hnamed : StoreCall.Named calls index) (hr : readRequest options call.body = .ok r)
    (hasks : call.AsksForAll r calls index) {response : Response}
    (hresponse : ((search Session.backend mappings options call).within
      (World.start ⟨db, false⟩)).1 = .ok response) :
    StoreCall.ShownBy calls index response.hits.hits := by
  obtain ⟨p, hp, hhits⟩ := Session.search_hits hresponse
  rw [h.prepare_eq hnamed hr hasks] at hp
  cases hp
  obtain ⟨docs, hdocs, hmem⟩ := h.documents?_eq_some hnamed
  have htable := (indexTable?_tablePrefix db index).trans hdocs
  have hkeyed := h.keyed.indexTable? htable
  refine StoreCall.shownBy_of_perm hkeyed hmem ?_
  have hread : ∀ d ∈ docs, Json.read d.body.print = some d.body := fun d hd =>
    hreadable _ (StoreCall.exists_put_of_stored? ((hmem d).mp hd))
  have hlength := StoreCall.length_le_keys hkeyed fun d hd => (hmem d).mp hd
  exact hits_perm (t := ⟨index, Index.tablePrefix ++ index⟩) htable hread rfl hasks.types
    (Int.toNat_of_nonpos hasks.offset) (fun n hn => hlength.trans (hasks.size n hn)) hhits

/-- **It comes to a response** if it aggregates nothing and can be sorted. -/
theorem search_succeeds (h : db.Follows calls) (hreadable : ∀ c ∈ calls, c.IsReadable)
    (hnamed : StoreCall.Named calls index) (hr : readRequest options call.body = .ok r)
    (hasks : call.AsksForAll r calls index) (haggregations : r.aggregations = [])
    (hterms : r.sort.length ≤ maxOrderTerms)
    (hsort : ∀ d : Document, StoreCall.stored? calls index d.docType d.id = some d.body →
      ∀ s ∈ r.sort, ∃ cell, d.fieldValue s.field = .ok cell) :
    ∃ response, ((search Session.backend mappings options call).within
      (World.start ⟨db, false⟩)).1 = .ok response := by
  have hp := h.prepare_eq hnamed hr hasks
  obtain ⟨docs, hdocs, hmem⟩ := h.documents?_eq_some hnamed
  have htable := (indexTable?_tablePrefix db index).trans hdocs
  have hread : ∀ d ∈ docs, Json.read d.body.print = some d.body := fun d hd =>
    hreadable _ (StoreCall.exists_put_of_stored? ((hmem d).mp hd))
  let p : Prepared := ⟨r, [⟨index, Index.tablePrefix ++ index⟩], none⟩
  have hhits : ∃ hits, db.hits (p.context mappings call) none r.sort
      (pageOverride call.size r.size) (pageOverride call.offset r.offset) = .ok hits :=
    hits_total (t := ⟨index, Index.tablePrefix ++ index⟩) h.keyed htable hread
      (fun d hd => hsort d ((hmem d).mp hd)) hterms rfl hasks.types
  obtain ⟨hits, hhits⟩ := hhits
  rw [Session.search_of_no_aggregations hp haggregations, hhits]
  exact ⟨_, rfl⟩

end Database.Follows

/-! ### The map -/

namespace Database

/-- A database behaves like the map that calls describe: in each index from types and
identifiers to what was stored there last. -/
structure Refines (db : Database) (calls : List StoreCall) : Prop where
  /-- A call with a name that is not allowed fails and changes nothing. -/
  refused : ∀ call : StoreCall, Index.isValidName call.index = false →
    db.perform call = (.error (.invalidIndexName call.index), db)
  /-- An index may be created again. -/
  create : ∀ index, Index.isValidName index = true → (db.perform (.create index)).1 = .ok none
  /-- A document is new if nothing is stored under its key. -/
  put : ∀ index (d : Document), Index.isValidName index = true →
    (db.perform (.put index d)).1 = .ok (some
      (if (StoreCall.stored? calls index d.docType d.id).isSome then .updated else .created))
  /-- The indices are listed in order, each of them once. -/
  sorted : db.listIndices.Pairwise (· < ·)
  /-- The indices that are listed are those that were named. -/
  listed : ∀ index, index ∈ db.listIndices ↔ StoreCall.Named calls index
  /-- The indices that have a table are those that were named. -/
  hasTable : ∀ index, (∃ table, db.tableFor index = .ok (some table)) ↔ StoreCall.Named calls index
  /-- A search for everything in an index shows what was stored there. -/
  shows : (∀ c ∈ calls, c.IsReadable) → ∀ index, StoreCall.Named calls index →
    ∀ mappings options call r, readRequest options call.body = .ok r →
      call.AsksForAll r calls index → ∀ response, ((search Session.backend mappings options
        call).within (World.start ⟨db, false⟩)).1 = .ok response →
          StoreCall.ShownBy calls index response.hits.hits
  /-- It comes to a response if it aggregates nothing and can be sorted. -/
  succeeds : (∀ c ∈ calls, c.IsReadable) → ∀ index, StoreCall.Named calls index →
    ∀ mappings options call r, readRequest options call.body = .ok r →
      call.AsksForAll r calls index → r.aggregations = [] → r.sort.length ≤ maxOrderTerms →
        (∀ d : Document, StoreCall.stored? calls index d.docType d.id = some d.body →
          ∀ s ∈ r.sort, ∃ cell, d.fieldValue s.field = .ok cell) →
        ∃ response, ((search Session.backend mappings options call).within
          (World.start ⟨db, false⟩)).1 = .ok response

/-- A document is new if nothing is stored under its key. -/
theorem Follows.perform_put {db : Database} {calls : List StoreCall} (h : db.Follows calls)
    {index : String} (hvalid : Index.isValidName index = true) (d : Document) :
    (db.perform (.put index d)).1 = .ok (some
      (if (StoreCall.stored? calls index d.docType d.id).isSome then .updated else .created)) := by
  have hput : Index.isValidName (StoreCall.put index d).index = true := hvalid
  obtain ⟨after, hperform, -⟩ := perform_of_valid db hput
  have hthere : (((db.documents? index).getD []).any d.sameKey = true) ↔
      (StoreCall.stored? calls index d.docType d.id).isSome = true := by
    rw [List.any_eq_true, Option.isSome_iff_exists]
    constructor
    · rintro ⟨e, he, hkey⟩
      obtain ⟨htype, hid⟩ : d.docType = e.docType ∧ d.id = e.id := by
        simpa [Document.sameKey] using hkey
      exact ⟨e.body, htype ▸ hid ▸ (h.mem_documents index e).mp he⟩
    · rintro ⟨body, hbody⟩
      exact ⟨⟨d.docType, d.id, body⟩, (h.mem_documents index ⟨d.docType, d.id, body⟩).mpr hbody,
        by simp [Document.sameKey]⟩
  rw [hperform]
  simp only [StoreCall.outcome, StoreCall.index, hthere]

/-- The indices that have a table are those that were named. -/
theorem Follows.hasTable {db : Database} {calls : List StoreCall} (h : db.Follows calls)
    (index : String) :
    (∃ table, db.tableFor index = .ok (some table)) ↔ StoreCall.Named calls index := by
  rw [← h.mem_names]
  constructor
  · rintro ⟨table, htable⟩
    exact mem_of_tableFor_eq_some htable
  · intro hmem
    exact ⟨_, by rw [tableFor_of_valid db ((h.mem_names index).mp hmem).1, if_pos hmem]⟩

/-- **A database refines a map**, whatever indices are created and whatever documents are
stored in whatever order. -/
theorem refines_map (calls : List StoreCall) : (empty.performAll calls).Refines calls := by
  have h := follows_performAll calls
  refine ⟨fun call hinvalid => perform_of_invalid _ hinvalid, fun index hvalid => ?_,
    fun index d hvalid => h.perform_put hvalid d, listIndices_pairwise h.nodup,
    fun index => mem_listIndices.trans (h.mem_names index), h.hasTable,
    fun hreadable index hnamed _ _ _ _ hr hasks _ hresponse =>
      h.search_shows hreadable hnamed hr hasks hresponse,
    fun hreadable index hnamed _ _ _ _ hr hasks haggregations hterms hsort =>
      h.search_succeeds hreadable hnamed hr hasks haggregations hterms hsort⟩
  have hcreate : Index.isValidName (StoreCall.create index).index = true := hvalid
  obtain ⟨after, hperform, -⟩ := perform_of_valid (empty.performAll calls) hcreate
  rw [hperform]
  rfl

/-- Calls that store one document twice, and another one in an index that may not be. -/
def storedTwice : List StoreCall :=
  [.put "a" ⟨"doc", "1", .str "old"⟩, .put "A" ⟨"doc", "1", .null⟩,
    .put "b" ⟨"doc", "1", .null⟩, .put "a" ⟨"doc", "1", .str "new"⟩]

/-- A search in the index shows what was stored there last, and a document that is stored
there again is not new. -/
theorem refines_map_stored_twice :
    let db := empty.performAll storedTwice
    (db.perform (.put "a" ⟨"doc", "1", .null⟩)).1 = .ok (some .updated) ∧
      ∃ response, ((search Session.backend (.ofIndices []) {} { body := "", indices := ["a"] }).within
        (World.start ⟨db, false⟩)).1 = .ok response ∧
          ⟨"a", "doc", "1", .str "new"⟩ ∈ response.hits.hits := by
  intro db
  have hrefines : db.Refines storedTwice := refines_map storedTwice
  let r : Request := ⟨.matchAll, [], 0, 10, [], ""⟩
  have hr : readRequest {} "" = .ok r := rfl
  have hstored : StoreCall.stored? storedTwice "a" "doc" "1" = some (.str "new") := rfl
  have hreadable : ∀ c ∈ storedTwice, c.IsReadable := by
    simp only [storedTwice, List.forall_mem_cons, StoreCall.IsReadable]
    exact ⟨rfl, rfl, rfl, rfl, List.forall_mem_nil _⟩
  have hnamed : StoreCall.Named storedTwice "a" := ⟨by decide, _, List.mem_cons_self, rfl⟩
  have hasks : SearchCall.AsksForAll { body := "", indices := ["a"] } r storedTwice "a" :=
    ⟨rfl, rfl, rfl, by decide, by decide +kernel⟩
  obtain ⟨response, hresponse⟩ := hrefines.succeeds hreadable "a" hnamed _ _ _ r hr hasks rfl
    (by decide) fun _ _ => List.forall_mem_nil _
  have hshown := hrefines.shows hreadable "a" hnamed _ _ _ r hr hasks _ hresponse
  refine ⟨?_, response, hresponse, (hshown.mem _ _ _).mpr hstored⟩
  rw [hrefines.put "a" _ (by decide), hstored]
  rfl

end Database

end DocSearch
