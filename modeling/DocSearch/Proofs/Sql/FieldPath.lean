import DocSearch.Proofs.Sql.TextArray
import DocSearch.Proofs.Sql.Token
import DocSearch.Sql.Dialect

/-!
# Paths of fields in PostgreSQL

A field that is no column is addressed by a literal: its name where there is no dot, and
otherwise the array of the names on the path.  A name in this array stands between quotes
unless it is made of letters, digits and underscores.

The quotes are not enough for a backslash, which takes the meaning of the character behind
it away, and without quotes the word `null` is no name.  So a path with dots addresses its
field exactly if no name on it holds a backslash or is `null` in any case of letters.

## Main results

* `Field.readTextArray_postgresPath_iff` — which paths are read as the names on them.
* `Dialect.postgres_addresses` — **which fields PostgreSQL expressions address**.
-/

namespace DocSearch

open Sql ArrayReading

/-! ### Names on the path -/

namespace Text

theorem mem_of_mem_splitWhere {p : Char → Bool} {cs piece : List Char} {c : Char}
    (hpiece : piece ∈ splitWhere p cs) (hc : c ∈ piece) : c ∈ cs := by
  induction cs generalizing piece with
  | nil =>
    rw [splitWhere_nil, List.mem_singleton] at hpiece
    exact absurd (hpiece ▸ hc) List.not_mem_nil
  | cons d cs ih =>
    rw [splitWhere] at hpiece
    split at hpiece
    · rcases List.mem_cons.mp hpiece with rfl | hpiece
      · exact absurd hc List.not_mem_nil
      · exact List.mem_cons_of_mem d (ih hpiece hc)
    · cases hsplit : splitWhere p cs with
      | nil => exact absurd hsplit (splitWhere_ne_nil p cs)
      | cons first pieces =>
        rw [hsplit] at hpiece ih
        rcases List.mem_cons.mp hpiece with rfl | hpiece
        · rcases List.mem_cons.mp hc with rfl | hc
          · exact List.mem_cons_self
          · exact List.mem_cons_of_mem d (ih List.mem_cons_self hc)
        · exact List.mem_cons_of_mem d (ih (List.mem_cons_of_mem first hpiece) hc)

end Text

namespace Field

variable {field s : String}

/-- A name on the path of a field that is not refused. -/
structure IsSegment (s : String) : Prop where
  ne_empty : s ≠ ""
  quote_not_mem : '"' ∉ s.toList

theorem isSegment_of_checkName (h : checkName field = .ok ()) :
    ∀ s ∈ segments field, IsSegment s := by
  have hempty : ¬ (segments field).any (·.isEmpty) = true := by
    intro hempty
    rw [checkName, if_pos hempty] at h
    split at h <;> cases h
  have hforbidden : ¬ (field.toList.any fun c => c == '"' || Text.isControl c) = true := by
    intro hforbidden
    rw [checkName, if_neg hempty, if_pos hforbidden] at h
    split at h <;> cases h
  intro s hs
  refine ⟨?_, fun hquote => hforbidden ?_⟩
  · rintro rfl
    exact hempty (List.any_eq_true.mpr ⟨_, hs, rfl⟩)
  · obtain ⟨piece, hpiece, rfl⟩ := List.mem_map.mp hs
    rw [String.toList_ofList] at hquote
    exact List.any_eq_true.mpr ⟨_, Text.mem_of_mem_splitWhere hpiece hquote, rfl⟩

theorem segments_ne_nil (field : String) : segments field ≠ [] := by
  rw [segments, Text.splitOn, ne_eq, List.map_eq_nil_iff]
  exact Text.splitWhere_ne_nil _ _

/-- Letters, digits and underscores mean nothing in an array. -/
theorem arrayMark_of_isSimpleSegment (h : isSimpleSegment s = true) :
    ∀ c ∈ s.toList, arrayMark c = .plain := by
  intro c hc
  have hletter : (c.isAlphanum || c == '_') = true := List.all_eq_true.mp h c hc
  have hne : ∀ d, (d.isAlphanum || d == '_') = false → c ≠ d := by
    rintro d hd rfl
    rw [hletter] at hd
    cases hd
  rw [arrayMark, if_neg, if_neg (hne ',' rfl), if_neg (hne '"' rfl), if_neg (hne '\\' rfl),
    if_neg (hne '\x7b' rfl), if_neg (hne '\x7d' rfl)]
  intro hspace
  have hblank : [' ', '\t', '\n', '\x0b', '\x0c', '\r'].all
      (fun d => (d.isAlphanum || d == '_') == false) = true := by decide
  exact hne c (beq_iff_eq.mp (List.all_eq_true.mp hblank c hspace)) rfl

theorem isSimpleSegment_of_null (h : Text.asciiLower s = "null") : isSimpleSegment s = true := by
  have hlower : s.toList.map Char.toLower = ['n', 'u', 'l', 'l'] := by
    have htoList := congrArg String.toList h
    rwa [Text.asciiLower, String.toList_ofList] at htoList
  refine List.all_eq_true.mpr fun c hc => ?_
  have hletter : c.toLower ∈ ['n', 'u', 'l', 'l'] := hlower ▸ List.mem_map_of_mem hc
  by_cases hupper : c.isUpper = true
  · unfold Char.isAlphanum Char.isAlpha
    rw [hupper]
    rfl
  · have hsame : c.toLower = c := by
      unfold Char.isUpper at hupper
      unfold Char.toLower
      rw [dif_neg]
      simpa using hupper
    rw [hsame] at hletter
    have hword : ['n', 'u', 'l', 'l'].all (fun d => d.isAlphanum || d == '_') = true := by decide
    exact List.all_eq_true.mp hword c hletter

variable {done more : List (Option String)} {rest : List Char} {c : Char} {place : ArrayPlace}

/-- A simple name is read as itself unless it spells `null`. -/
theorem run_simpleSegment (hs : s ≠ "") (hsimple : isSimpleSegment s = true)
    (hc : endPlace? (arrayMark c) = some place) :
    run ⟨done, .before⟩ (s.toList ++ c :: rest) =
      run ⟨done ++ [if Text.asciiLower s = "null" then none else some s], place⟩ rest := by
  have hplain := arrayMark_of_isSimpleSegment hsimple
  have helement := bareElement_plain hplain
  rw [String.ofList_toList] at helement
  cases hcs : s.toList with
  | nil => exact absurd (String.toList_eq_nil_iff.mp hcs) hs
  | cons d cs =>
    rw [hcs] at hplain helement
    obtain ⟨hd, hplain⟩ := List.forall_mem_cons.mp hplain
    have hstart : step ⟨done, .before⟩ d = some ⟨done, .bare [(d, false)]⟩ := by
      simp only [step, hd]
    rw [List.cons_append, run, hstart, Option.bind_some, run_plain hplain, run, step_bare hc,
      Option.bind_some, ← helement]
    rfl

/-- A name in quotes is read as itself unless it holds a backslash. -/
theorem run_quoted (hquote : '"' ∉ s.toList) (hescape : '\\' ∉ s.toList)
    (hc : endPlace? (arrayMark c) = some place) :
    run ⟨done, .quoted []⟩ (s.toList ++ '"' :: c :: rest) =
      run ⟨done ++ [some s], place⟩ rest := by
  rw [run_literal hquote hescape, run, step_quoted, if_pos rfl, Option.bind_some, run,
    step_behind hc, Option.bind_some, List.nil_append, String.ofList_toList]

/-- **A name on the path is read as itself exactly if it neither holds a backslash nor spells
`null`.** -/
theorem run_quotedSegment_iff (hs : IsSegment s) (hc : endPlace? (arrayMark c) = some place) :
    run ⟨done, .before⟩ ((quotedSegment s).toList ++ c :: rest) = some (done ++ some s :: more) ↔
      ('\\' ∉ s.toList ∧ Text.asciiLower s ≠ "null") ∧
        run ⟨done ++ [some s], place⟩ rest = some (done ++ some s :: more) := by
  by_cases hsimple : isSimpleSegment s = true
  · have hescape : '\\' ∉ s.toList := fun hmem =>
      absurd (arrayMark_of_isSimpleSegment hsimple _ hmem) (by decide)
    rw [quotedSegment, if_pos hsimple, run_simpleSegment hs.ne_empty hsimple hc]
    by_cases hnull : Text.asciiLower s = "null"
    · rw [if_pos hnull]
      exact ⟨fun h => absurd (eq_of_run h) (by simp), fun h => absurd hnull h.1.2⟩
    · rw [if_neg hnull]
      exact (and_iff_right ⟨hescape, hnull⟩).symm
  · have hnull : Text.asciiLower s ≠ "null" := fun h => hsimple (isSimpleSegment_of_null h)
    have hstart : step ⟨done, .before⟩ '"' = some ⟨done, .quoted []⟩ := rfl
    have htext : (quotedSegment s).toList ++ c :: rest = '"' :: (s.toList ++ '"' :: c :: rest) := by
      rw [quotedSegment, if_neg hsimple]
      simp
    rw [htext, run, hstart, Option.bind_some]
    -- a backslash in quotes is dropped, so what is read is shorter than the name
    by_cases hescape : '\\' ∈ s.toList
    · refine ⟨fun h => ?_, fun h => absurd hescape h.1.1⟩
      have hlt := ((length_le_of_run hs.quote_not_mem hs.quote_not_mem []).1 h).2 hescape
      simp at hlt
    · rw [run_quoted hs.quote_not_mem hescape hc]
      exact (and_iff_right ⟨hescape, hnull⟩).symm

theorem run_segments_iff {segs : List String} (done : List (Option String)) (hne : segs ≠ [])
    (hsegs : ∀ s ∈ segs, IsSegment s) :
    run ⟨done, .before⟩ ((Text.joinWith "," (segs.map quotedSegment)).toList ++ ['\x7d']) =
        some (done ++ segs.map some) ↔
      ∀ s ∈ segs, '\\' ∉ s.toList ∧ Text.asciiLower s ≠ "null" := by
  induction segs generalizing done with
  | nil => exact absurd rfl hne
  | cons s segs ih =>
    obtain ⟨hs, hsegs⟩ := List.forall_mem_cons.mp hsegs
    rw [List.forall_mem_cons, List.map_cons, List.map_cons]
    cases segs with
    | nil =>
      have hend : endPlace? (arrayMark '\x7d') = some .closed := rfl
      rw [List.map_nil, Text.joinWith_singleton, run_quotedSegment_iff hs hend]
      simp [run]
    | cons t segs =>
      have hend : endPlace? (arrayMark ',') = some .before := rfl
      have htext : (Text.joinWith "," (quotedSegment s :: (t :: segs).map quotedSegment)).toList ++
          ['\x7d'] = (quotedSegment s).toList ++ ',' ::
            ((Text.joinWith "," ((t :: segs).map quotedSegment)).toList ++ ['\x7d']) := by
        simp [Text.joinWith_cons_cons]
      have hrest := ih (done ++ [some s]) (by simp) hsegs
      rw [List.append_assoc] at hrest
      rw [htext, run_quotedSegment_iff hs hend, ← hrest]
      rfl

/-- **Which paths are read as the names on them.** -/
theorem readTextArray_postgresPath_iff (h : checkName field = .ok ()) :
    readTextArray (Dialect.postgresPath field) = some ((segments field).map some) ↔
      ∀ s ∈ segments field, '\\' ∉ s.toList ∧ Text.asciiLower s ≠ "null" := by
  have hpath := run_segments_iff [] (segments_ne_nil field) (isSegment_of_checkName h)
  have hstart : step ⟨[], .outside⟩ '\x7b' = some ⟨[], .before⟩ := rfl
  have htext : (Dialect.postgresPath field).toList = '\x7b' ::
      ((Text.joinWith "," ((segments field).map quotedSegment)).toList ++ ['\x7d']) := by
    simp [Dialect.postgresPath]
  rw [readTextArray, htext, run, hstart, Option.bind_some]
  exact hpath

end Field

namespace Dialect

theorem memberText_postgres (field : String) : memberText postgres field = member postgres field :=
  rfl

/-- The expression of a member is the column of the documents, an operator and a literal. -/
theorem tokenize_extract (before sign t : String)
    (hscan : scan .gap before.toList = ([.word "doc", .sign sign], .gap)) :
    tokenize (before ++ quoteLiteral t) = some [.word "doc", .sign sign, .literal t] :=
  tokenize_append_of_gap hscan (tokenize_quoteLiteral t)

/-- **Which fields PostgreSQL expressions address.**  A name without a dot is addressed as it is;
a path with dots is read as the names on it exactly if none of these holds a backslash or spells
`null`. -/
theorem postgres_addresses {field : String} (hname : Field.checkName field = .ok ())
    (hcolumn : column? field = none) :
    postgres.fieldText field = postgres.fieldValue field ∧
    if '.' ∈ field.toList then
      ∃ path, tokenize (postgres.fieldValue field) =
          some [.word "doc", .sign "#>>", .literal path] ∧
        (readTextArray path = some ((Field.segments field).map some) ↔
          ∀ s ∈ Field.segments field, '\\' ∉ s.toList ∧ Text.asciiLower s ≠ "null")
    else
      tokenize (postgres.fieldValue field) = some [.word "doc", .sign "->>", .literal field] := by
  have htext : postgres.fieldText field = postgres.fieldValue field := by
    rw [fieldText, fieldValue, memberText_postgres]
  refine ⟨htext, ?_⟩
  simp only [fieldValue, hcolumn, Option.getD_none, member, List.contains_iff_mem]
  split
  · have hsign : scan .gap "doc #>> ".toList = ([.word "doc", .sign "#>>"], .gap) := by rfl
    exact ⟨_, tokenize_extract "doc #>> " "#>>" _ hsign,
      Field.readTextArray_postgresPath_iff hname⟩
  · have hsign : scan .gap "doc ->> ".toList = ([.word "doc", .sign "->>"], .gap) := by rfl
    exact tokenize_extract "doc ->> " "->>" _ hsign

/-- A path with an apostrophe and a comma on it. -/
theorem postgres_addresses_odd_names :
    Field.checkName "o'clock.a, b" = .ok () ∧ column? "o'clock.a, b" = none ∧
    ∃ path, tokenize (postgres.fieldValue "o'clock.a, b") =
        some [.word "doc", .sign "#>>", .literal path] ∧
      readTextArray path = some [some "o'clock", some "a, b"] := by
  have hname : Field.checkName "o'clock.a, b" = .ok () := by rfl
  have hcolumn : column? "o'clock.a, b" = none := by decide +kernel
  have haddress := (postgres_addresses hname hcolumn).2
  rw [if_pos (by decide +kernel)] at haddress
  obtain ⟨path, hpath, hread⟩ := haddress
  have hsegments : Field.segments "o'clock.a, b" = ["o'clock", "a, b"] := by decide +kernel
  rw [hsegments] at hread
  exact ⟨hname, hcolumn, path, hpath, hread.mpr (by decide +kernel)⟩

/-- A name `null` is read as a missing one, and a backslash is lost. -/
theorem postgres_misses_names :
    (Field.checkName "a.null" = .ok () ∧ column? "a.null" = none ∧
      tokenize (postgres.fieldValue "a.null") =
        some [.word "doc", .sign "#>>", .literal "\x7ba,null\x7d"] ∧
      readTextArray "\x7ba,null\x7d" = some [some "a", none] ∧
      Field.segments "a.null" = ["a", "null"]) ∧
    Field.checkName "a.b\\c" = .ok () ∧ column? "a.b\\c" = none ∧
      tokenize (postgres.fieldValue "a.b\\c") =
        some [.word "doc", .sign "#>>", .literal "\x7ba,\"b\\c\"\x7d"] ∧
      readTextArray "\x7ba,\"b\\c\"\x7d" = some [some "a", some "bc"] ∧
      Field.segments "a.b\\c" = ["a", "b\\c"] :=
  ⟨⟨by rfl, by decide +kernel⟩, by rfl, by decide +kernel⟩

end Dialect

end DocSearch
