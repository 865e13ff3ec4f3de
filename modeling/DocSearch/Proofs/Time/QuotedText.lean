import DocSearch.Proofs.Time.Format
import DocSearch.Text

/-!
# Quoted text in patterns of bucket keys

Quoted text in a pattern is meant to stay as it is, with the quotes inside of it written
twice.  But a quote ends the text that is open, and the next quote starts another one: a
quoted text with quotes inside is read as several texts in quotes, next to each other.  What
is between two of these quotes is written, and two quotes with nothing between them are
written as one.

So the quotes at the ends of a text with other characters are kept, but between two other
characters one quote of each row is lost.  A text of quotes only gets one more.

## Main definitions

* `DateFormat.quotedText` — what a quoted text writes.

## Main results

* `DateFormat.translate_quotedText` — a quoted text is turned into characters that stand for
  themselves.
* `DateFormat.quotedText_eq_iff` — a text stays as it is exactly if it has other characters
  than quotes, and its quotes are all at its ends.
* `DateFormat.format_quoted` — **what a pattern of quoted text writes**.
-/

namespace DocSearch

namespace Text

variable {p : Char → Bool} {s : List Char}

/-- Without a character to cut at there is one piece. -/
theorem splitWhere_of_forall (hs : ∀ c ∈ s, p c = false) : splitWhere p s = [s] := by
  induction s with
  | nil => rfl
  | cons c cs ih =>
    obtain ⟨hc, hcs⟩ := List.forall_mem_cons.mp hs
    rw [splitWhere, if_neg (by simp [hc]), ih hcs]

/-- The first piece goes to the first character to cut at. -/
theorem splitWhere_append_cons (hs : ∀ c ∈ s, p c = false) {d : Char} (hd : p d = true)
    (rest : List Char) : splitWhere p (s ++ d :: rest) = s :: splitWhere p rest := by
  induction s with
  | nil => rw [List.nil_append, splitWhere, if_pos hd]
  | cons c cs ih =>
    obtain ⟨hc, hcs⟩ := List.forall_mem_cons.mp hs
    rw [List.cons_append, splitWhere, if_neg (by simp [hc]), ih hcs]

end Text

namespace DateFormat

open Sql (doubled)

variable {s : List Char}

/-! ### Texts by their first quote -/

/-- A text has no quote, or it goes on behind the first one. -/
theorem quote_induction {P : List Char → Prop} (plain : ∀ s, '\x27' ∉ s → P s)
    (quote : ∀ s rest, '\x27' ∉ s → P rest → P (s ++ '\x27' :: rest)) (cs : List Char) : P cs := by
  -- what stands before the first quote is collected in front
  suffices h : ∀ s, '\x27' ∉ s → P (s ++ cs) by simpa using h [] List.not_mem_nil
  induction cs with
  | nil => simpa using plain
  | cons c cs ih =>
    intro s hs
    by_cases hc : c = '\x27'
    · subst hc
      exact quote s cs hs (by simpa using ih [] List.not_mem_nil)
    · rw [← List.singleton_append, ← List.append_assoc]
      exact ih (s ++ [c]) (by simpa [hs] using Ne.symm hc)

theorem doubled_of_notMem (hs : '\x27' ∉ s) : doubled '\x27' s = s := by
  induction s with
  | nil => rfl
  | cons c cs ih =>
    obtain ⟨hc, hcs⟩ := not_or.mp (mt List.mem_cons.mpr hs)
    rw [Sql.doubled_cons_of_ne (Ne.symm hc), ih hcs]

theorem doubled_append_quote (hs : '\x27' ∉ s) (rest : List Char) :
    doubled '\x27' (s ++ '\x27' :: rest) = s ++ '\x27' :: '\x27' :: doubled '\x27' rest := by
  induction s with
  | nil => rw [List.nil_append, Sql.doubled_cons_self, List.nil_append]
  | cons c cs ih =>
    obtain ⟨hc, hcs⟩ := not_or.mp (mt List.mem_cons.mpr hs)
    rw [List.cons_append, Sql.doubled_cons_of_ne (Ne.symm hc), ih hcs, List.cons_append]

/-! ### What is written -/

/-- What a quoted text writes: the pieces between its quotes, and a quote for each of them that
is empty. -/
def quotedText (cs : List Char) : List Char :=
  (Text.splitWhere (· == '\x27') cs).flatMap quotedOutput

theorem quotedText_of_notMem (hs : '\x27' ∉ s) : quotedText s = quotedOutput s := by
  have hpiece : ∀ c ∈ s, (c == '\x27') = false := fun c hc =>
    beq_false_of_ne fun h => hs (h ▸ hc)
  rw [quotedText, Text.splitWhere_of_forall hpiece, List.flatMap_singleton]

theorem quotedText_append_quote (hs : '\x27' ∉ s) (rest : List Char) :
    quotedText (s ++ '\x27' :: rest) = quotedOutput s ++ quotedText rest := by
  have hpiece : ∀ c ∈ s, (c == '\x27') = false := fun c hc =>
    beq_false_of_ne fun h => hs (h ▸ hc)
  rw [quotedText, Text.splitWhere_append_cons hpiece rfl, List.flatMap_cons, quotedText]

theorem quotedOutput_of_ne_nil (hs : s ≠ []) : quotedOutput s = s := by
  rw [quotedOutput, if_neg (by simpa using hs)]

/-- A quote in front of the text is kept. -/
theorem quotedText_cons_quote (cs : List Char) :
    quotedText ('\x27' :: cs) = '\x27' :: quotedText cs :=
  quotedText_append_quote List.not_mem_nil cs

theorem quotedText_replicate_append (n : Nat) (cs : List Char) :
    quotedText (List.replicate n '\x27' ++ cs) = List.replicate n '\x27' ++ quotedText cs := by
  induction n with
  | zero => rfl
  | succ n ih => rw [List.replicate_succ, List.cons_append, quotedText_cons_quote, ih]; rfl

/-- The quotes of a text of quotes are kept, and there is one more. -/
theorem quotedText_replicate (n : Nat) :
    quotedText (List.replicate n '\x27') = List.replicate (n + 1) '\x27' := by
  simpa [List.replicate_succ', quotedText_of_notMem, quotedOutput] using
    quotedText_replicate_append n []

/-- Behind other characters, the first quote is lost; it comes back at the end if there are
only quotes. -/
theorem quotedText_eq_cons_iff (cs : List Char) :
    quotedText cs = '\x27' :: cs ↔ ∃ n, cs = List.replicate n '\x27' := by
  constructor
  · induction cs using quote_induction with
    | plain s hs =>
      intro h
      by_cases hnil : s = []
      · exact ⟨0, hnil⟩
      · rw [quotedText_of_notMem hs, quotedOutput_of_ne_nil hnil] at h
        exact absurd (congrArg List.length h) (by simp)
    | quote s rest hs ih =>
      intro h
      rw [quotedText_append_quote hs] at h
      cases s with
      | nil =>
        obtain ⟨n, rfl⟩ := ih (List.cons.inj h).2
        exact ⟨n + 1, rfl⟩
      | cons c cs =>
        rw [quotedOutput_of_ne_nil (List.cons_ne_nil c cs)] at h
        exact absurd (List.cons.inj h).1 (List.ne_of_not_mem_cons hs).symm
  · rintro ⟨n, rfl⟩
    exact quotedText_replicate n

/-- **A text stays as it is exactly if it has other characters than quotes, and its quotes are all
at its ends.** -/
theorem quotedText_eq_iff (cs : List Char) :
    quotedText cs = cs ↔ ∃ s a b, s ≠ [] ∧ '\x27' ∉ s ∧
      cs = List.replicate a '\x27' ++ s ++ List.replicate b '\x27' := by
  constructor
  · induction cs using quote_induction with
    | plain s hs =>
      intro h
      refine ⟨s, 0, 0, ?_, hs, by simp⟩
      rintro rfl
      exact absurd h (by decide)
    | quote s rest hs ih =>
      intro h
      rw [quotedText_append_quote hs] at h
      by_cases hnil : s = []
      · subst hnil
        obtain ⟨s, a, b, hne, hs, rfl⟩ := ih (List.cons.inj h).2
        exact ⟨s, a + 1, b, hne, hs, rfl⟩
      · rw [quotedOutput_of_ne_nil hnil, List.append_cancel_left_eq] at h
        obtain ⟨n, rfl⟩ := (quotedText_eq_cons_iff rest).mp h
        exact ⟨s, 0, n + 1, hnil, hs, by simp [List.replicate_succ]⟩
  · rintro ⟨s, a, b, hne, hs, rfl⟩
    rw [List.append_assoc, quotedText_replicate_append]
    congr 1
    cases b with
    | zero => simpa [quotedText_of_notMem hs] using quotedOutput_of_ne_nil hne
    | succ b =>
      rw [List.replicate_succ, quotedText_append_quote hs, quotedOutput_of_ne_nil hne,
        quotedText_replicate, List.replicate_succ]

/-! ### The pattern of a quoted text -/

/-- Characters that stand for themselves are written. -/
theorem format_literals {f : DateFormat} {cs : List Char}
    (htext : f.rendering = .directives (cs.flatMap escapeLiteral)) {millis : Int}
    (hmillis : Instant.inRange millis) : (f.format millis).toList = cs := by
  rw [format_of_spells htext (Spells.literals cs) hmillis, formatInstant, List.flatMap_map]
  exact List.flatMap_singleton' cs

/-- A quote opens a text, and the next quote ends it. -/
theorem translate_quoted (hs : '\x27' ∉ s) (rest : List Char) :
    translate ('\x27' :: (s ++ '\x27' :: rest)) =
      (translate rest).map ((quotedOutput s).flatMap escapeLiteral ++ ·) := by
  have hplain : ∀ c ∈ s, decide (c ≠ '\x27') = true := fun c hc =>
    decide_eq_true fun h => hs (h ▸ hc)
  rw [translate_quote, List.takeWhile_append_of_pos hplain, List.dropWhile_append_of_pos hplain]
  simp

/-- **A quoted text is turned into the characters that it writes.** -/
theorem translate_quotedText (cs : List Char) :
    translate ('\x27' :: doubled '\x27' cs ++ ['\x27']) =
      .ok ((quotedText cs).flatMap escapeLiteral) := by
  induction cs using quote_induction with
  | plain s hs =>
    rw [doubled_of_notMem hs, List.cons_append, translate_quoted hs, translate_nil,
      quotedText_of_notMem hs, Except.map, List.append_nil]
  | quote s rest hs ih =>
    rw [doubled_append_quote hs, List.cons_append, List.append_assoc, List.cons_append,
      translate_quoted hs, ih, quotedText_append_quote hs, List.flatMap_append]
    rfl

/-- A text in quotes is accepted, and read as the characters that it writes. -/
theorem read_quoted (t : String) : read (Sql.enquote '\x27' t) =
    .ok ⟨Sql.enquote '\x27' t, .directives ((quotedText t.toList).flatMap escapeLiteral)⟩ := by
  have htext : (Sql.enquote '\x27' t).toList = '\x27' :: doubled '\x27' t.toList ++ ['\x27'] :=
    String.toList_ofList
  have hname : Sql.enquote '\x27' t ∉ names := by
    intro hmem
    have hheads : ∀ name ∈ names, name.toList.head? ≠ some '\x27' := by decide
    exact hheads _ hmem (by rw [htext]; rfl)
  rw [read_pattern hname, htext, translate_quotedText]

/-- **A text in quotes is accepted, and its pieces are written**, whatever the instant.  This is
the text itself exactly if it has other characters than quotes, and all quotes stand at its
ends: between two other characters one quote is lost. -/
theorem format_quoted (t : String) :
    ∃ f, read (Sql.enquote '\x27' t) = .ok f ∧ ∀ millis, Instant.inRange millis →
      (f.format millis).toList = quotedText t.toList ∧
      (f.format millis = t ↔ ∃ s a b, s ≠ [] ∧ '\x27' ∉ s ∧
        t.toList = List.replicate a '\x27' ++ s ++ List.replicate b '\x27') := by
  obtain ⟨f, hread, hf⟩ : ∃ f, read (Sql.enquote '\x27' t) = .ok f ∧
      f.rendering = .directives ((quotedText t.toList).flatMap escapeLiteral) :=
    ⟨_, read_quoted t, rfl⟩
  refine ⟨f, hread, fun millis hmillis => ?_⟩
  have hformat := format_literals hf hmillis
  refine ⟨hformat, ?_⟩
  rw [← quotedText_eq_iff, ← hformat, String.toList_inj]

/-- Quotes and a percent sign at the ends of a text. -/
theorem format_quoted_ends :
    ∃ f, read "'''''%d'''" = .ok f ∧ Instant.inRange 0 ∧ f.format 0 = "''%d'" := by
  have hmillis : Instant.inRange 0 := by decide
  obtain ⟨f, hread, hformat⟩ := format_quoted "''%d'"
  exact ⟨f, hread, hmillis, (hformat 0 hmillis).2.mpr ⟨['%', 'd'], 2, 1, by decide, by decide, rfl⟩⟩

/-- The quote of `it's` is lost. -/
theorem quote_inside_is_lost :
    ∃ f, read (Sql.enquote '\x27' "it's") = .ok f ∧ Instant.inRange 0 ∧ f.format 0 = "its" := by
  have hmillis : Instant.inRange 0 := by decide
  refine ⟨_, read_quoted "it's", hmillis, String.toList_inj.mp ?_⟩
  rw [format_literals rfl hmillis]
  decide

end DateFormat

end DocSearch
