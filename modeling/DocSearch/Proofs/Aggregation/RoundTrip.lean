import DocSearch.Aggregation.Reader
import DocSearch.Proofs.Steps

/-!
# Aggregations are read as they were written

The reader of aggregations accepts more spellings than the writer has: three names and
two units for an interval, two names for the children, members that are ignored.  What
it gives has only one spelling, and that one is read as what was written.

A tree that was read is special in two ways only.  Its fields have names that can be
addressed, and its formats are the formats of their own patterns.  A tree with these two
properties is read back, whatever its siblings are called.

## Main definitions

* `DateFormat.Faithful` — a format that its own pattern spells.
* `Aggregation.Readable`, `Aggregations.Readable` — the two properties, at every depth.

## Main results

* `Aggregations.readable_of_ofValue` — what is read is readable.
* `Aggregations.ofMembers_members` — what is readable is read back.
* `Aggregations.ofJson_toJson` — what was read is read back.
-/

namespace DocSearch

open Steps

/-! ### Formats -/

namespace DateFormat

/-- A format that its own pattern spells. -/
def Faithful (f : DateFormat) : Prop := read f.pattern = .ok f

theorem pattern_of_read {pattern : String} {f : DateFormat} (h : read pattern = .ok f) :
    f.pattern = pattern := by
  unfold read at h
  -- a name, a named rendering, or a pattern that is translated
  repeat' split at h
  all_goals cases h
  all_goals rfl

theorem faithful_of_read {pattern : String} {f : DateFormat} (h : read pattern = .ok f) :
    f.Faithful := by
  have hpattern := pattern_of_read h
  rw [Faithful, hpattern]
  exact h

end DateFormat

/-! ### Readable trees -/

mutual

/-- The field can be addressed, and the format is the one its pattern spells; so it is
for all aggregations below. -/
def Aggregation.Readable : Aggregation → Prop
  | .metric _ field => Field.checkName field = .ok ()
  | .dateHistogram field _ format children =>
    Field.checkName field = .ok () ∧ (∀ f ∈ format, f.Faithful)
      ∧ Aggregations.Readable children

/-- All of several siblings are readable. -/
def Aggregations.Readable : List (String × Aggregation) → Prop
  | [] => True
  | (_, a) :: rest => a.Readable ∧ Aggregations.Readable rest

end

/-! ### What is read is readable -/

namespace Aggregation

variable {name : String} {a : Aggregation}

theorem checkName_of_field {v : Json} {f : String} (h : field name v = .ok f) :
    Field.checkName f = .ok () := by
  unfold field at h
  split at h
  · cases h
  split at h
  · next hf =>
    cases h
    exact hf
  · cases h

theorem faithful_of_format {v : Json} {f : DateFormat} (h : format name v = .ok f) :
    f.Faithful := by
  unfold format at h
  split at h
  · cases h
  split at h
  · next hf =>
    cases h
    exact DateFormat.faithful_of_read hf
  · cases h

theorem checkName_of_metricParameter {acc next : Option String} {m : String × Json}
    (h : metricParameter name acc m = .ok next) : ∀ f ∈ next, Field.checkName f = .ok () := by
  intro f hf
  unfold metricParameter at h
  split at h
  · obtain ⟨g, hg, rfl⟩ := map_eq_ok.mp h
    cases hf
    exact checkName_of_field hg
  · cases h

theorem metric_of_readMetric {m : Metric} {body : Json} (h : readMetric name m body = .ok a) :
    ∃ f, a = .metric m f ∧ Field.checkName f = .ok () := by
  simp only [readMetric, bind_eq_ok] at h
  obtain ⟨ms, -, found, hfound, h⟩ := h
  have hchecked : ∀ f ∈ found, Field.checkName f = .ok () :=
    foldlM_keeps (I := fun acc : Option String => ∀ f ∈ acc, Field.checkName f = .ok ())
      (fun hstep _ => checkName_of_metricParameter hstep) hfound (by simp)
  split at h
  · next f =>
    cases h
    exact ⟨f, rfl, hchecked f rfl⟩
  · cases h

/-- The parameters that are there so far could stand in a readable histogram. -/
structure HistogramParameters.Readable (p : HistogramParameters) : Prop where
  /-- The field can be addressed. -/
  field : ∀ f ∈ p.field, Field.checkName f = .ok ()
  /-- The format is the one its pattern spells. -/
  format : ∀ f ∈ p.format, f.Faithful

theorem readable_of_histogramParameter {p q : HistogramParameters} {m : String × Json}
    (h : histogramParameter name p m = .ok q) (hp : p.Readable) : q.Readable := by
  obtain ⟨key, v⟩ := m
  simp only [histogramParameter] at h
  -- one case for each name of a parameter; a name that is not known is refused
  split at h
  · obtain ⟨f, hf, h⟩ := bind_eq_ok.mp h
    cases h
    refine ⟨fun g hg => ?_, hp.format⟩
    cases hg
    exact checkName_of_field hf
  split at h
  · split at h
    · cases h
    · obtain ⟨i, -, h⟩ := bind_eq_ok.mp h
      cases h
      exact ⟨hp.field, hp.format⟩
  split at h
  · obtain ⟨f, hf, h⟩ := bind_eq_ok.mp h
    cases h
    refine ⟨hp.field, fun g hg => ?_⟩
    cases hg
    exact faithful_of_format hf
  split at h
  · split at h
    · cases h
      exact hp
    · cases h
  · cases h

theorem dateHistogram_of_readHistogram {body : Json} {children : Aggregations}
    (h : readHistogram name body children = .ok a) :
    ∃ f i form, a = .dateHistogram f i form children ∧ Field.checkName f = .ok ()
      ∧ ∀ g ∈ form, g.Faithful := by
  simp only [readHistogram, bind_eq_ok] at h
  obtain ⟨ms, -, p, hp, h⟩ := h
  have hstart : ({} : HistogramParameters).Readable := ⟨by simp, by simp⟩
  have hread : p.Readable := foldlM_keeps readable_of_histogramParameter hp hstart
  split at h
  · cases h
  · cases h
  · next f i hf _ =>
    cases h
    exact ⟨f, i, p.format, rfl, hread.field f hf, hread.format⟩

/-- What an aggregation can be that was read: a metric over a field that can be
addressed, or a histogram over one, with a faithful format if any, above the children
that are there. -/
theorem ofBody_cases {body : Json} (h : ofBody name body = .ok a) :
    (∃ m f, a = .metric m f ∧ Field.checkName f = .ok ()) ∨
    ∃ f i form children ms, a = .dateHistogram f i form children ∧ Field.checkName f = .ok ()
      ∧ (∀ g ∈ form, g.Faithful) ∧ body = .obj ms
      ∧ (Aggregations.ofChildren name ms).getD (.ok []) = .ok children := by
  cases body with
  | obj ms =>
    simp only [ofBody, bind_eq_ok] at h
    obtain ⟨e, -, h⟩ := h
    unfold ofEntry at h
    split at h
    · cases h
    split at h
    · obtain ⟨children, hchildren, h⟩ := bind_eq_ok.mp h
      obtain ⟨f, i, form, ha, hf, hform⟩ := dateHistogram_of_readHistogram h
      exact .inr ⟨f, i, form, children, ms, ha, hf, hform, rfl, hchildren⟩
    split at h
    · cases h
    split at h
    · cases h
    · next m _ _ =>
      obtain ⟨f, ha, hf⟩ := metric_of_readMetric h
      exact .inl ⟨m, f, ha, hf⟩
  | _ => simp [ofBody] at h

end Aggregation

open Aggregation

mutual

/-- **What is read is readable**, at every depth. -/
theorem Aggregations.readable_of_ofValue {owner : String} :
    ∀ {v : Json} {siblings : Aggregations},
      Aggregations.ofValue owner v = .ok siblings → Aggregations.Readable siblings
  | .obj ms, siblings, h => by
    rw [Aggregations.ofValue] at h
    exact Aggregations.readable_of_ofMembers h
  | .null, _, h => by simp [Aggregations.ofValue] at h
  | .bool _, _, h => by simp [Aggregations.ofValue] at h
  | .num _, _, h => by simp [Aggregations.ofValue] at h
  | .str _, _, h => by simp [Aggregations.ofValue] at h
  | .arr _, _, h => by simp [Aggregations.ofValue] at h

theorem Aggregations.readable_of_ofMembers :
    ∀ {ms : List (String × Json)} {siblings : Aggregations},
      Aggregations.ofMembers ms = .ok siblings → Aggregations.Readable siblings
  | [], siblings, h => by
    rw [Aggregations.ofMembers] at h
    cases h
    exact trivial
  | (name, body) :: rest, siblings, h => by
    simp only [Aggregations.ofMembers, bind_eq_ok, pure_eq_ok] at h
    obtain ⟨a, ha, others, hothers, rfl⟩ := h
    exact ⟨Aggregation.readable_of_ofBody ha, Aggregations.readable_of_ofMembers hothers⟩

theorem Aggregation.readable_of_ofBody {name : String} :
    ∀ {body : Json} {a : Aggregation}, Aggregation.ofBody name body = .ok a → a.Readable
  | .obj ms, a, h => by
    rcases ofBody_cases h with
      ⟨m, f, rfl, hf⟩ | ⟨f, i, form, children, ms', rfl, hf, hform, hms, hchildren⟩
    · exact hf
    · cases hms
      rw [Aggregation.Readable]
      exact ⟨hf, hform, Aggregations.readable_of_ofChildren hchildren⟩
  | .null, _, h => by simp [Aggregation.ofBody] at h
  | .bool _, _, h => by simp [Aggregation.ofBody] at h
  | .num _, _, h => by simp [Aggregation.ofBody] at h
  | .str _, _, h => by simp [Aggregation.ofBody] at h
  | .arr _, _, h => by simp [Aggregation.ofBody] at h

theorem Aggregations.readable_of_ofChildren {name : String} :
    ∀ {ms : List (String × Json)} {siblings : Aggregations},
      (Aggregations.ofChildren name ms).getD (.ok []) = .ok siblings →
        Aggregations.Readable siblings
  | [], _, h => by
    cases h
    exact trivial
  | (key, v) :: rest, siblings, h => by
    rw [Aggregations.ofChildren] at h
    split at h
    · exact Aggregations.readable_of_ofValue h
    · exact Aggregations.readable_of_ofChildren h

end

/-! ### What is readable is read back -/

namespace Aggregation

variable {name : String}

theorem field_str {f : String} (h : Field.checkName f = .ok ()) :
    field name (.str f) = .ok f := by
  simp only [field, Json.string?]
  rw [h]

theorem interval_unit (parameter : String) (i : Interval) :
    interval name parameter (.str i.unit) = .ok i := by
  simp [interval, Json.string?]

theorem format_pattern {f : DateFormat} (h : f.Faithful) :
    format name (.str f.pattern) = .ok f := by
  have hread : DateFormat.read f.pattern = .ok f := h
  simp only [format, Json.string?]
  rw [hread]

theorem readMetric_field (name : String) (m : Metric) {f : String}
    (h : Field.checkName f = .ok ()) :
    readMetric name m (.obj [("field", .str f)]) = .ok (.metric m f) := by
  simp [readMetric, parameters, metricParameter, field_str h, Except.map, bind, Except.bind, pure,
    Except.pure]

theorem readHistogram_parameters (name : String) {f : String}
    (hf : Field.checkName f = .ok ()) (i : Interval)
    {form : Option DateFormat} (hform : ∀ g ∈ form, g.Faithful) (children : Aggregations) :
    readHistogram name (.obj (histogramParameters f i form)) children
      = .ok (.dateHistogram f i form children) := by
  have hi : interval name "interval" (.str i.unit) = .ok i := interval_unit "interval" i
  cases form with
  | none =>
    simp [readHistogram, parameters, histogramParameters, histogramParameter, field_str hf, hi,
      bind, Except.bind, pure, Except.pure]
  | some g =>
    have hg : format name (.str g.pattern) = .ok g := format_pattern (hform g rfl)
    simp [readHistogram, parameters, histogramParameters, histogramParameter, field_str hf, hi, hg,
      bind, Except.bind, pure, Except.pure]

theorem entryOf_kind (name : String) {kind : String} (body : Json) (haggs : kind ≠ "aggs")
    (haggregations : kind ≠ "aggregations") (hmeta : kind ≠ "meta") :
    entryOf name (.obj [(kind, body)]) = .ok { kind := some (kind, body) } := by
  simp [entryOf, entryMember, haggs, haggregations, hmeta, pure, Except.pure, bind, Except.bind]

theorem ofBody_metric (m : Metric) {f : String} (h : Field.checkName f = .ok ()) :
    ofBody name (toJson (.metric m f)) = .ok (.metric m f) := by
  -- a metric has a name of its own, so it is taken neither for children nor for a histogram
  have hkey : m.key ≠ "aggs" ∧ m.key ≠ "aggregations" ∧ m.key ≠ "meta"
      ∧ m.key ≠ "date_histogram" := by
    cases m <;> decide
  obtain ⟨haggs, haggregations, hmeta, hhistogram⟩ := hkey
  have hentry := entryOf_kind name (.obj [("field", .str f)]) haggs haggregations hmeta
  have hchildren : Aggregations.ofChildren name [(m.key, .obj [("field", .str f)])] = none := by
    simp [Aggregations.ofChildren, haggs, haggregations]
  have hread := readMetric_field name m h
  rw [toJson, ofBody, hentry]
  simpa [ofEntry, hchildren, hhistogram, bind, Except.bind] using hread

theorem ofBody_dateHistogram {f : String} (hf : Field.checkName f = .ok ()) (i : Interval)
    {form : Option DateFormat} (hform : ∀ g ∈ form, g.Faithful) {children : Aggregations}
    (hchildren : Aggregations.ofMembers (Aggregations.members children) = .ok children) :
    ofBody name (toJson (.dateHistogram f i form children))
      = .ok (.dateHistogram f i form children) := by
  have hread := readHistogram_parameters name hf i hform children
  cases children with
  | nil =>
    have hentry := entryOf_kind name (.obj (histogramParameters f i form))
      (show "date_histogram" ≠ "aggs" by decide) (by decide) (by decide)
    rw [toJson, ofBody, hentry]
    simpa [ofEntry, Aggregations.ofChildren, bind, Except.bind] using hread
  | cons c cs =>
    rw [toJson, ofBody]
    simpa [entryOf, entryMember, ofEntry, Aggregations.ofChildren, Aggregations.ofValue, hchildren,
      bind, Except.bind, pure, Except.pure] using hread

end Aggregation

mutual

theorem Aggregation.ofBody_toJson (name : String) :
    ∀ {a : Aggregation}, a.Readable → Aggregation.ofBody name a.toJson = .ok a
  | .metric m f, h => by
    rw [Aggregation.Readable] at h
    exact Aggregation.ofBody_metric m h
  | .dateHistogram f i form children, h => by
    rw [Aggregation.Readable] at h
    obtain ⟨hf, hform, hchildren⟩ := h
    exact Aggregation.ofBody_dateHistogram hf i hform (Aggregations.ofMembers_members hchildren)

/-- **What is readable is read back**, at every depth and under any names. -/
theorem Aggregations.ofMembers_members :
    ∀ {siblings : Aggregations}, Aggregations.Readable siblings →
      Aggregations.ofMembers (Aggregations.members siblings) = .ok siblings
  | [], _ => by rw [Aggregations.members, Aggregations.ofMembers]
  | (name, a) :: rest, h => by
    rw [Aggregations.Readable] at h
    obtain ⟨ha, hrest⟩ := h
    have hbody := Aggregation.ofBody_toJson name ha
    have hothers := Aggregations.ofMembers_members hrest
    rw [Aggregations.members, Aggregations.ofMembers, hbody, hothers]
    rfl

end

/-- What is readable is read back from what is written. -/
theorem Aggregations.ofJson_of_readable {siblings : Aggregations}
    (h : Aggregations.Readable siblings) :
    Aggregations.ofJson siblings.toJson = .ok siblings := by
  rw [Aggregations.toJson, Aggregations.ofJson, Aggregations.ofValue]
  exact Aggregations.ofMembers_members h

/-- **Aggregations that were read are read back as they are**: the same names, kinds,
fields, intervals, formats and children, in the same order at every level. -/
theorem Aggregations.ofJson_toJson {v : Json} {siblings : Aggregations}
    (h : Aggregations.ofJson v = .ok siblings) :
    Aggregations.ofJson siblings.toJson = .ok siblings := by
  have hreadable : Aggregations.Readable siblings := Aggregations.readable_of_ofValue h
  exact Aggregations.ofJson_of_readable hreadable

/-- Hours by a shorthand, a pattern with quoted text and the UTC zone, and below them a
histogram that is called like a member of an aggregation. -/
theorem Aggregations.ofJson_toJson_nested :
    ∃ siblings : Aggregations,
      siblings = [("meta", .dateHistogram "at" .hour
          (some ⟨"yyyy'T'HH", .directives "%YT%H".toList⟩)
        [("aggs", .dateHistogram "at" .month none []), ("sum", .metric .valueCount "n")])]
      ∧ Aggregations.ofJson (.obj [("meta", .obj
          [("aggregations", .obj
            [("aggs", .obj [("meta", .null), ("date_histogram", .obj
              [("calendar_interval", .str "month"), ("field", .str "at")])]),
             ("sum", .obj [("value_count", .obj [("field", .str "n")])])]),
           ("date_histogram", .obj
            [("time_zone", .str "Z"), ("format", .str "yyyy'T'HH"), ("fixed_interval", .str "1h"),
             ("field", .str "at")])])]) = .ok siblings
      ∧ Aggregations.ofJson siblings.toJson = .ok siblings := by
  refine ⟨_, rfl, (and_iff_left_of_imp Aggregations.ofJson_toJson).mpr ?_⟩
  have hy : 'y'.isAlpha = true := rfl
  have hH : 'H'.isAlpha = true := rfl
  have hformat : DateFormat.read "yyyy'T'HH" = .ok ⟨"yyyy'T'HH", .directives "%YT%H".toList⟩ := by
    simp [DateFormat.read, DateFormat.translate, DateFormat.directive?, DateFormat.escapeLiteral,
      hy, hH, Except.map]
  have hat : Field.checkName "at" = .ok () := rfl
  have hn : Field.checkName "n" = .ok () := rfl
  simp [Aggregations.ofJson, Aggregations.ofValue, Aggregations.ofMembers, Aggregation.ofBody,
    Aggregations.ofChildren, entryOf, entryMember, ofEntry, readHistogram, parameters,
    histogramParameter, field, hat, hn, interval, format, hformat, Json.string?,
    Interval.ofName?, utcNames, Metric.ofKey?, readMetric, metricParameter, bind, Except.bind, pure,
    Except.pure, Except.map]

end DocSearch
