import DocSearch.Proofs.Store.Indices
import DocSearch.Server.Service

/-!
# Mapping requests that are rejected

Declaring the mapping of an index has two effects: the index is created, and then the
types of its fields are declared.  The body is read between the two, so a request that is
rejected for its body has created the index all the same.

## Main definitions

* `HttpResponse.IsClientError` — the response blames the request.
* `Service.withIndex` — the service with one more index, which has no documents.
* `Service.RefusesNewIndex` — the body is refused, and there is no such index yet.

## Main results

* `Service.putMapping_cases` — what declaring a mapping comes to.
* `Service.mapping_rejected` — **a request that is rejected declares nothing**, and changes
  nothing else unless its body is refused for an index that was not there.
-/

namespace DocSearch

open Members

/-- The response blames the request. -/
def HttpResponse.IsClientError (r : HttpResponse) : Prop := 400 ≤ r.status ∧ r.status < 500

instance (r : HttpResponse) : Decidable r.IsClientError := inferInstanceAs (Decidable (_ ∧ _))

namespace Service

variable {s : Service} {index : String} {body : Json}

/-- The service with one more index, which has no documents. -/
def withIndex (s : Service) (index : String) : Service :=
  { s with database := { s.database with indices := s.database.indices ++ [(index, [])] } }

/-- The body of a mapping is refused for an index that is not there, but might be. -/
structure RefusesNewIndex (s : Service) (index : String) (body : Json) : Prop where
  /-- The name is allowed. -/
  valid : Index.isValidName index = true
  /-- There is no such index. -/
  new : index ∉ names s.database.indices
  /-- The body is refused. -/
  refused : ∃ e, Mappings.ofBody body = .error e

/-! ### The mapping of an index -/

theorem putMapping_of_invalid (h : Index.isValidName index = false) :
    s.putMapping index body = ((Fault.ofStore (.invalidIndexName index)).response, s) := by
  rw [putMapping, Database.createIndex_of_invalid s.database h]

/-- What declaring a mapping comes to, once the index is created. -/
theorem putMapping_of_created {database : Database}
    (h : s.database.createIndex index = .ok database) :
    s.putMapping index body = match Mappings.ofBody body with
      | .error e => ((Fault.refused e.message).response, { s with database })
      | .ok fields => (⟨200, some (.obj [("acknowledged", .bool true)])⟩, { s with
          database
          mappings := fields.foldl (fun m (field, type) => m.put index none field type)
            s.mappings }) := by
  rw [putMapping, h]
  simp only [Mappings.putProperties]
  cases Mappings.ofBody body with
  | error e => rfl
  | ok fields => rfl

/-- **What declaring a mapping comes to.**  It is acknowledged, or it changes nothing, or its
body is refused for an index that has been created for it. -/
theorem putMapping_cases (s : Service) (index : String) (body : Json) :
    (s.putMapping index body).1.status = 200 ∨ (s.putMapping index body).2 = s ∨
      s.RefusesNewIndex index body ∧ (s.putMapping index body).2 = s.withIndex index := by
  cases hvalid : Index.isValidName index with
  | false => exact .inr (.inl (by rw [putMapping_of_invalid hvalid]))
  | true =>
    by_cases hmem : index ∈ names s.database.indices
    · rw [putMapping_of_created (Database.createIndex_of_mem hvalid hmem)]
      cases Mappings.ofBody body with
      | error e => exact .inr (.inl rfl)
      | ok fields => exact .inl rfl
    · rw [putMapping_of_created (Database.createIndex_of_notMem hvalid hmem)]
      cases hbody : Mappings.ofBody body with
      | error e => exact .inr (.inr ⟨⟨hvalid, hmem, e, hbody⟩, rfl⟩)
      | ok fields => exact .inl rfl

/-! ### Requests -/

/-- A request to declare a mapping is answered once the name in its address and its body
are read. -/
theorem handle_of_put_mapping {r : HttpRequest} {segment : String} (around : Surroundings)
    (hput : r.method = .put) (hroute : Route.ofPath? r.path = some (.mapping segment)) :
    s.handle around r = match decodeName? segment with
      | none => (⟨400, none⟩, s)
      | some index => s.withJson r (s.putMapping index) := by
  have hallows : (Route.mapping segment).allows .put = true := rfl
  rw [handle, hput, if_neg (by decide), hroute]
  simp only [hallows, Route.decoded?]
  cases decodeName? segment with
  | none => rfl
  | some index => simp [serve, hput]

/-- **A mapping request that is rejected declares nothing.**  Whatever the address names
and whatever the body says, the declared types stay as they are, and so do the indices and
their documents unless the body is JSON that is refused as a mapping and the index was not
there: then it is there afterwards, without documents. -/
theorem mapping_rejected (s : Service) (around : Surroundings) (r : HttpRequest) (segment : String)
    (hput : r.method = .put) (hroute : Route.ofPath? r.path = some (.mapping segment))
    (hrejected : (s.handle around r).1.IsClientError) :
    let after := (s.handle around r).2
    after.mappings = s.mappings ∧
      (after.database = s.database ∨ ∃ index body, decodeName? segment = some index ∧
        s.jsonBody r = .ok body ∧ s.RefusesNewIndex index body ∧ after = s.withIndex index) := by
  intro after
  have hafter : after = (s.handle around r).2 := rfl
  rw [handle_of_put_mapping around hput hroute] at hafter hrejected
  cases hname : decodeName? segment with
  | none =>
    rw [hname] at hafter
    rw [hafter]
    exact ⟨rfl, .inl rfl⟩
  | some index =>
    rw [hname] at hafter hrejected
    simp only [withJson] at hafter hrejected
    cases hbody : s.jsonBody r with
    | error status =>
      rw [hbody] at hafter
      rw [hafter]
      exact ⟨rfl, .inl rfl⟩
    | ok body =>
      rw [hbody] at hafter hrejected
      simp only at hafter hrejected
      -- a mapping that is declared is not rejected, so only the two failures are left
      rcases putMapping_cases s index body with hok | hsame | ⟨hrefuses, hcreated⟩
      · exact absurd (hok ▸ hrejected.1) (by decide)
      · rw [hafter, hsame]
        exact ⟨rfl, .inl rfl⟩
      · rw [hafter, hcreated]
        exact ⟨rfl, .inr ⟨index, body, rfl, rfl, hrefuses, rfl⟩⟩

/-- A request to declare a type that does not exist. -/
def unknownTypeRequest : HttpRequest where
  method := .put
  path := "/x/_mapping"
  body := "\x7b\"properties\":\x7b\"a\":\x7b\"type\":\"geo_point\"\x7d\x7d\x7d"

/-- Such a request for a service without indices. -/
theorem mapping_rejected_unknown_type :
    let s := Service.start {}
    (s.handle ⟨"", 0⟩ unknownTypeRequest).1.IsClientError ∧
      (s.handle ⟨"", 0⟩ unknownTypeRequest).2.mappings = s.mappings :=
  ⟨by decide +kernel, (mapping_rejected (Service.start {}) ⟨"", 0⟩ unknownTypeRequest "x" rfl
    (by decide +kernel) (by decide +kernel)).1⟩

/-- **The index of a request that is rejected stays behind**: it was not there before, and
is listed afterwards. -/
theorem rejected_mapping_creates_index :
    let s := Service.start {}
    let (response, after) := s.handle ⟨"", 0⟩ unknownTypeRequest
    response.IsClientError ∧ s.database.listIndices = [] ∧ after.database.listIndices = ["x"] := by
  decide +kernel

end Service

end DocSearch
