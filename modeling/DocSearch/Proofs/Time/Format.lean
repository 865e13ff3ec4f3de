import DocSearch.Proofs.Time.Directives
import DocSearch.Sql.Quoting
import Mathlib.Data.List.SplitBy
import Mathlib.Data.List.TakeWhile

/-!
# What patterns of bucket keys write

A pattern is turned into format directives.  Whatever the pattern is, these directives are
read without an error, so that every instant can be written by them.  Without quotes, each
run of one letter writes its field, and every other character stays as it is.

## Main definitions

* `DateFormat.names`, `DateFormat.nameFields`, `DateFormat.patternFields` — the formats that
  have a name, and the fields of these and of the other ones.
* `DateFormat.runField?` — the field of a run of one letter.
* `DateFormat.runs`, `DateFormat.runItem` — a pattern in runs, and what each of them means.
* `DateFormat.quotedOutput` — what is written for a text between two quotes.

## Main results

* `DateFormat.spells_of_translate`, `DateFormat.translate_runs` — a pattern is turned into
  directives and characters that stand for themselves; without quotes, those of its runs.
* `DateFormat.read_sound` — **every instant can be written by an accepted pattern, and a
  pattern without quotes writes its runs**.
-/

namespace DocSearch

namespace DateFormat

/-! ### The fields of formats -/

/-- The formats that have a name. -/
def names : List String :=
  ["epoch_millis", "epoch_second", "date_optional_time", "strict_date_optional_time",
    "date_time", "date", "strict_date", "basic_date"]

/-- The fields of the formats that have a name. -/
def nameFields : List Directive := [.year, .month, .day, .hour, .minute, .second, .pointMillis]

/-- The fields of patterns. -/
def patternFields : List Directive :=
  [.year, .shortYear, .month, .bareMonth, .monthLetters, .monthName, .day, .bareDay, .hour,
    .bareHour, .halfDayHour, .minute, .second, .millis, .halfDay, .weekdayLetters, .weekday,
    .zone]

/-- The fields that a format may have. -/
def fields (pattern : String) : List Directive :=
  if pattern ∈ names then nameFields else patternFields

/-- The field of a run of `count` times the letter `c`. -/
def runField? (c : Char) (count : Nat) : Option Directive :=
  match c with
  | 'y' => some (if count = 2 then .shortYear else .year)
  | 'M' =>
    some (if count = 1 then .bareMonth else if count = 2 then .month
      else if count = 3 then .monthLetters else .monthName)
  | 'd' => some (if count = 1 then .bareDay else .day)
  | 'H' => some (if count = 1 then .bareHour else .hour)
  | 'h' => some .halfDayHour
  | 'm' => some .minute
  | 's' => some .second
  | 'S' => some .millis
  | 'a' => some .halfDay
  | 'E' => some (if count ≤ 3 then .weekdayLetters else .weekday)
  | 'Z' => some .zone
  | 'X' => some .zone
  | _ => none

theorem directive?_eq (c : Char) (count : Nat) :
    directive? c count = (runField? c count).map fun d => String.ofList ('%' :: d.specifier) := by
  unfold directive?
  split
  all_goals first | rfl | (simp only [runField?]; split_ifs <;> rfl) | simp [runField?, *]

theorem mem_patternFields_of_runField? {c : Char} {count : Nat} {d : Directive}
    (h : runField? c count = some d) : d ∈ patternFields := by
  unfold runField? at h
  split at h
  all_goals first | (cases h; done) | (cases h; split_ifs <;> decide) | (cases h; decide)

/-! ### One step of the translation -/

/-- The text between two quotes as it is written; nothing between them is a quote. -/
def quotedOutput (piece : List Char) : List Char := if piece.isEmpty then ['\x27'] else piece

theorem translate_nil : translate [] = .ok [] := by rw [translate]

/-- Quoted text goes to the next quote or to the end. -/
theorem translate_quote (cs : List Char) :
    translate ('\x27' :: cs) = (translate ((cs.dropWhile (· ≠ '\x27')).drop 1)).map
      ((quotedOutput (cs.takeWhile (· ≠ '\x27'))).flatMap escapeLiteral ++ ·) := by
  rw [translate, if_pos rfl, quotedOutput]
  dsimp only
  split_ifs <;> rfl

/-- A letter goes on as long as it is repeated. -/
theorem translate_letter {c : Char} (hc : c.isAlpha) (cs : List Char) :
    translate (c :: cs) = match runField? c ((cs.takeWhile (· = c)).length + 1) with
      | none => .error c
      | some d => (translate (cs.dropWhile (· = c))).map ('%' :: d.specifier ++ ·) := by
  have hquote : c ≠ '\x27' := by
    rintro rfl
    exact absurd hc (by decide)
  rw [translate, if_neg hquote, if_pos hc, directive?_eq]
  cases runField? c ((cs.takeWhile (· = c)).length + 1) with
  | none => rfl
  | some d => simp only [Option.map_some, String.toList_ofList]

/-- Any other character stands for itself. -/
theorem translate_other {c : Char} (hquote : c ≠ '\x27') (hc : ¬ c.isAlpha) (cs : List Char) :
    translate (c :: cs) = (translate cs).map (escapeLiteral c ++ ·) := by
  rw [translate, if_neg hquote, if_neg hc]

/-! ### Every pattern -/

/-- **A pattern is turned into directives of patterns and characters that stand for
themselves.** -/
theorem spells_of_translate {cs text : List Char} (h : translate cs = .ok text) :
    ∃ items, Spells text items ∧ ∀ d, .field d ∈ items → d ∈ patternFields := by
  induction cs using translate.induct generalizing text with
  | case1 =>
    rw [translate_nil, Except.ok.injEq] at h
    exact ⟨[], h ▸ .nil, by simp⟩
  | case2 cs ih =>
    rw [translate_quote, Steps.map_eq_ok] at h
    obtain ⟨rest, hrest, rfl⟩ := h
    obtain ⟨items, hspells, hfields⟩ := ih hrest
    exact ⟨_, (Spells.literals _).append hspells, by simpa using hfields⟩
  | case3 c cs hquote halpha hnone =>
    rw [directive?_eq, Option.map_eq_none_iff] at hnone
    rw [translate_letter halpha, hnone] at h
    cases h
  | case4 c cs hquote halpha text' hsome ih =>
    rw [directive?_eq, Option.map_eq_some_iff] at hsome
    obtain ⟨d, hd, -⟩ := hsome
    rw [translate_letter halpha, hd, Steps.map_eq_ok] at h
    obtain ⟨rest, hrest, rfl⟩ := h
    obtain ⟨items, hspells, hfields⟩ := ih hrest
    refine ⟨_, hspells.field d, fun d' hd' => ?_⟩
    rcases List.mem_cons.mp hd' with heq | hmem
    · exact FormatItem.field.inj heq ▸ mem_patternFields_of_runField? hd
    · exact hfields d' hmem
  | case5 c cs hquote halpha ih =>
    rw [translate_other hquote halpha, Steps.map_eq_ok] at h
    obtain ⟨rest, hrest, rfl⟩ := h
    obtain ⟨items, hspells, hfields⟩ := ih hrest
    exact ⟨_, hspells.literal c, by simpa using hfields⟩

/-! ### Patterns without quotes -/

/-- A pattern in its maximal runs of one letter; each other character is on its own. -/
def runs (cs : List Char) : List (List Char) := cs.splitBy fun a b => a.isAlpha && a == b

/-- What a run means: a letter its field, if it has one, and another character itself. -/
def runItem : List Char → FormatItem
  | [] => .error
  | c :: cs => if c.isAlpha then .ofField? (runField? c (cs.length + 1)) else .literal c

theorem runs_other {c : Char} (hc : ¬ c.isAlpha) (cs : List Char) :
    runs (c :: cs) = [c] :: runs cs := by
  rw [runs, ← List.singleton_append, List.splitBy_append (by simp [hc])]
  rfl

theorem runs_letter {c : Char} (hc : c.isAlpha) (cs : List Char) :
    runs (c :: cs) = (c :: cs.takeWhile (· = c)) :: runs (cs.dropWhile (· = c)) := by
  have hrun : c :: cs.takeWhile (· = c) = List.replicate ((cs.takeWhile (· = c)).length + 1) c := by
    rw [List.replicate_succ, List.cons.injEq, List.eq_replicate_iff]
    exact ⟨rfl, rfl, fun b hb => by simpa using List.mem_takeWhile_imp hb⟩
  have happend : runs (c :: cs) =
      runs (c :: cs.takeWhile (· = c)) ++ runs (cs.dropWhile (· = c)) := by
    rw [runs, runs, runs, ← List.splitBy_append, List.cons_append, List.takeWhile_append_dropWhile]
    intro x hx y hy
    have hxc : x = c := by
      rw [hrun] at hx
      exact List.eq_of_mem_replicate (List.mem_of_getLast? hx)
    have hyc : y ≠ c := by
      have := List.head?_dropWhile_not (· = c) cs
      rw [hy] at this
      simpa using this
    simp [hxc, Ne.symm hyc]
  rw [happend, runs, List.splitBy_of_isChain (List.cons_ne_nil _ _), List.singleton_append]
  rw [hrun]
  exact List.isChain_replicate_of_rel _ (by simp [hc])

/-- **A pattern without quotes is turned into the directives of its runs, unless one of them
means nothing.** -/
theorem translate_runs {cs : List Char} (hquote : '\x27' ∉ cs) :
    (.error ∈ (runs cs).map runItem ∧ ∃ c, translate cs = .error c) ∨
      ∃ text, translate cs = .ok text ∧ Spells text ((runs cs).map runItem) := by
  -- the translation takes a run at once, so the induction is on what it leaves
  induction cs using translate.induct with
  | case1 => exact .inr ⟨[], translate_nil, .nil⟩
  | case2 => exact absurd (List.mem_cons_self) hquote
  | case3 c cs _ halpha hnone =>
    rw [directive?_eq, Option.map_eq_none_iff] at hnone
    rw [runs_letter halpha, translate_letter halpha, hnone]
    exact .inl ⟨by simp [runItem, halpha, hnone, FormatItem.ofField?], c, rfl⟩
  | case4 c cs _ halpha _ hsome ih =>
    rw [directive?_eq, Option.map_eq_some_iff] at hsome
    obtain ⟨d, hd, -⟩ := hsome
    have hitem : runItem (c :: cs.takeWhile (· = c)) = .field d := by
      rw [runItem, if_pos halpha, hd, FormatItem.ofField?]
    have hrest : '\x27' ∉ cs.dropWhile (· = c) := fun h =>
      hquote (List.mem_cons_of_mem _ ((List.dropWhile_sublist _).mem h))
    rw [runs_letter halpha, translate_letter halpha, hd, List.map_cons, hitem]
    obtain ⟨herror, e, he⟩ | ⟨rest, hok, hspells⟩ := ih hrest
    · exact .inl ⟨List.mem_cons_of_mem _ herror, e, by rw [he]; rfl⟩
    · exact .inr ⟨_, by rw [hok]; rfl, hspells.field d⟩
  | case5 c cs hc halpha ih =>
    have hitem : runItem [c] = .literal c := if_neg halpha
    rw [runs_other halpha, translate_other hc halpha, List.map_cons, hitem]
    obtain ⟨herror, e, he⟩ | ⟨rest, hok, hspells⟩ := ih (fun h => hquote (.tail _ h))
    · exact .inl ⟨List.mem_cons_of_mem _ herror, e, by rw [he]; rfl⟩
    · exact .inr ⟨_, by rw [hok]; rfl, hspells.literal c⟩

/-! ### Reading a format -/

theorem spells_dateTime : Spells "%Y-%m-%dT%H:%M:%S%.3fZ".toList
    [.field .year, .literal '-', .field .month, .literal '-', .field .day, .literal 'T',
      .field .hour, .literal ':', .field .minute, .literal ':', .field .second,
      .field .pointMillis, .literal 'Z'] :=
  .field .year <| .literal '-' <| .field .month <| .literal '-' <| .field .day <| .literal 'T' <|
    .field .hour <| .literal ':' <| .field .minute <| .literal ':' <| .field .second <|
    .field .pointMillis <| .literal 'Z' .nil

theorem spells_date : Spells "%Y-%m-%d".toList
    [.field .year, .literal '-', .field .month, .literal '-', .field .day] :=
  .field .year <| .literal '-' <| .field .month <| .literal '-' <| .field .day .nil

theorem spells_basicDate : Spells "%Y%m%d".toList [.field .year, .field .month, .field .day] :=
  .field .year <| .field .month <| .field .day .nil

/-- What has no name is a pattern. -/
theorem read_pattern {pattern : String} (h : pattern ∉ names) :
    read pattern = match translate pattern.toList with
      | .ok text => .ok ⟨pattern, .directives text⟩
      | .error letter => .error ⟨letter, pattern⟩ := by
  simp only [names, List.mem_cons, List.not_mem_nil, or_false, not_or] at h
  cases htranslate : translate pattern.toList with
  | ok text => simp only [read, h, htranslate, or_self, if_false]
  | error letter => simp only [read, h, htranslate, or_self, if_false]

/-- The directives of an accepted format, with a name or without one. -/
theorem spells_of_read {pattern : String} {f : DateFormat} {text : List Char}
    (hf : read pattern = .ok f) (htext : f.rendering = .directives text) :
    ∃ items, Spells text items ∧ ∀ d, .field d ∈ items → d ∈ fields pattern := by
  -- a name stands for fixed directives, anything else is translated letter by letter
  by_cases hname : pattern ∈ names
  · rw [fields, if_pos hname]
    unfold read at hf
    split_ifs at hf with _ _ _ _ _
    · cases hf
      cases htext
    · cases hf
      cases htext
    · cases hf
      cases htext
      exact ⟨_, spells_dateTime, by simp [nameFields]⟩
    · cases hf
      cases htext
      exact ⟨_, spells_date, by simp [nameFields]⟩
    · cases hf
      cases htext
      exact ⟨_, spells_basicDate, by simp [nameFields]⟩
    · simp_all [names]
  · rw [fields, if_neg hname]
    rw [read_pattern hname] at hf
    cases htranslate : translate pattern.toList with
    | error letter =>
      rw [htranslate] at hf
      cases hf
    | ok text' =>
      rw [htranslate] at hf
      cases hf
      cases htext
      exact spells_of_translate htranslate

/-! ### Writing an instant -/

/-- A format writes the parts of its directives. -/
theorem format_of_spells {f : DateFormat} {text : List Char} {items : List FormatItem}
    (htext : f.rendering = .directives text) (hspells : Spells text items) {millis : Int}
    (hmillis : Instant.inRange millis) : (f.format millis).toList = formatInstant items millis := by
  simp only [format, htext, hmillis, if_true, String.toList_ofList, hspells.formatItems_eq]

/-- A part of directives of bucket keys is a directive of these or stands for itself. -/
theorem toStrftime_of_spells {text : List Char} {items : List FormatItem}
    (hspells : Spells text items) {item : StrftimeItem} (hitem : item ∈ strftimeItems text) :
    (∃ c, item = .literal c) ∨ ∃ d, .field d ∈ items ∧ item = .specifier d.specifier := by
  rw [hspells.strftimeItems_eq, List.mem_map] at hitem
  obtain ⟨part, hpart, rfl⟩ := hitem
  cases part with
  | literal c => exact .inl ⟨c, rfl⟩
  | field d => exact .inr ⟨d, hpart, rfl⟩
  | error => exact absurd hpart hspells.error_notMem

/-- **Every instant can be written by an accepted format.**  Its text is read with directives of
its own fields only and without an error.  A pattern without quotes is accepted exactly if all
of its runs mean something, and writes what they mean. -/
theorem read_sound (pattern : String) :
    (∀ f text, read pattern = .ok f → f.rendering = .directives text →
      (∀ item ∈ strftimeItems text,
        (∃ c, item = .literal c) ∨ ∃ d ∈ fields pattern, item = .specifier d.specifier) ∧
      ∀ millis, Instant.inRange millis →
        display? (strftimeItems text) millis = some (f.format millis).toList) ∧
    (pattern ∉ names → '\x27' ∉ pattern.toList →
      ((∃ f, read pattern = .ok f) ↔ .error ∉ (runs pattern.toList).map runItem) ∧
      ∀ f millis, read pattern = .ok f → Instant.inRange millis →
        (f.format millis).toList =
          (runs pattern.toList).flatMap fun run => (runItem run).write millis) := by
  refine ⟨fun f text hf htext => ?_, fun hname hquote => ?_⟩
  · obtain ⟨items, hspells, hfields⟩ := spells_of_read hf htext
    refine ⟨fun item hitem => ?_, fun millis hmillis => ?_⟩
    · exact (toStrftime_of_spells hspells hitem).imp_right fun ⟨d, hd, heq⟩ =>
        ⟨d, hfields d hd, heq⟩
    · rw [hspells.display?_eq, format_of_spells htext hspells hmillis]
  · rw [read_pattern hname]
    obtain ⟨herror, c, htranslate⟩ | ⟨text, htranslate, hspells⟩ := translate_runs hquote
    · rw [htranslate]
      refine ⟨⟨fun hf => ?_, fun h => absurd herror h⟩, fun f millis hf _ => ?_⟩
      · exact nomatch hf.choose_spec
      · exact nomatch hf
    · rw [htranslate]
      refine ⟨⟨fun _ => hspells.error_notMem, fun _ => ⟨_, rfl⟩⟩, fun f millis hf hmillis => ?_⟩
      cases hf
      rw [format_of_spells rfl hspells hmillis, formatInstant, List.flatMap_map]

/-- A percent sign in front of a field: the two stay apart. -/
theorem read_sound_percent :
    ∃ f, read "%yy-d" = .ok f ∧ f.rendering = .directives "%%%y-%-d".toList ∧
      Instant.inRange 0 ∧
      display? (strftimeItems "%%%y-%-d".toList) 0 = some (f.format 0).toList ∧
      (f.format 0).toList = "%70-1".toList := by
  have htranslate : translate "%yy-d".toList = .ok "%%%y-%-d".toList := by
    show translate ('%' :: 'y' :: ['y', '-', 'd']) = _
    rw [translate_other (by decide) (by decide), translate_letter (by decide)]
    show ((translate ('-' :: ['d'])).map _).map _ = _
    rw [translate_other (by decide) (by decide), translate_letter (by decide)]
    show ((((translate []).map _).map _).map _).map _ = _
    rw [translate_nil]
    rfl
  have hread : read "%yy-d" = .ok ⟨"%yy-d", .directives "%%%y-%-d".toList⟩ := by
    rw [read_pattern (by decide), htranslate]
  have hmillis : Instant.inRange 0 := by decide
  obtain ⟨hdisplay, hruns⟩ := read_sound "%yy-d"
  exact ⟨_, hread, rfl, hmillis, (hdisplay _ _ hread rfl).2 0 hmillis,
    ((hruns (by decide) (by decide)).2 _ 0 hread hmillis).trans (by decide)⟩

end DateFormat

end DocSearch
