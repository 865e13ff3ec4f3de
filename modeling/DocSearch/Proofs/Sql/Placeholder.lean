import DocSearch.Proofs.Sql.Plain

/-!
# Texts with placeholders

The texts of statements are plain texts with placeholders between them.  Such texts are
closed under concatenation as long as no digit comes to stand behind a placeholder, where
it would be read as a part of the number that takes the place of the placeholder.

## Main definitions

* `Slotted s n` — `s` consists of plain texts with `n` placeholders between them.
* `numberedJoin` — texts with `$1`, `$2` and so on between them.
* `references` — the numbers that are read off a text.
* `Fragment.Aligned` — a fragment has one value for each placeholder.

## Main results

* `Slotted.append` — concatenation.
* `Slotted.exists_pieces` — each placeholder becomes its number, and nothing else changes.
* `Slotted.references` — the numbers are read off again, in order.
* `Fragment.inline_raw_append`, `Fragment.IsSlotted.inline_append_raw` — values are written
  into a fragment, and not into a plain text before or behind it.
-/

namespace DocSearch.Sql

/-! ### Plain texts with placeholders between them -/

/-- A text that does not start with a digit. -/
def Separate (s : String) : Prop := ∀ c ∈ s.toList.head?, c.isDigit = false

/-- Whether a text that is written out does not start with a digit. -/
def startsApart : List Char → Bool
  | [] => true
  | c :: _ => !c.isDigit

theorem separate_ofList {cs : List Char} (h : startsApart cs = true) :
    Separate (String.ofList cs) := by
  rw [Separate, String.toList_ofList]
  intro c hc
  cases cs with
  | nil => cases hc
  | cons d ds =>
    cases hc
    exact (Bool.not_eq_true' _).mp h

theorem Separate.append {s t : String} (hs : Separate s) (hne : s ≠ "") : Separate (s ++ t) := by
  intro c hc
  rw [String.toList_append] at hc
  cases h : s.toList with
  | nil => exact absurd (String.toList_eq_nil_iff.mp h) hne
  | cons d ds =>
    rw [h] at hc
    exact hs c (h ▸ hc)

/-- Plain texts with `n` placeholders between them, none of which has a digit behind it. -/
inductive Slotted : String → Nat → Prop where
  /-- A plain text. -/
  | plain {s : String} (hs : Plain s) : Slotted s 0
  /-- A placeholder behind a plain text. -/
  | slot {s t : String} {n : Nat} (hs : Plain s) (ht : Slotted t n) (hsep : Separate t) :
    Slotted (s ++ "?" ++ t) (n + 1)

namespace Slotted

variable {s t sep : String} {m n : Nat}

theorem plain_append (hs : Plain s) (ht : Slotted t n) : Slotted (s ++ t) n := by
  cases ht with
  | plain ht => exact .plain (hs.append ht)
  | @slot u v n hu hv hsep =>
    rw [← String.append_assoc, ← String.append_assoc]
    exact .slot (hs.append hu) hv hsep

/-- **Texts with placeholders are closed under concatenation**, if the second one starts
with no digit. -/
theorem append (hs : Slotted s m) (ht : Slotted t n) (hsep : Separate t) :
    Slotted (s ++ t) (m + n) := by
  induction hs with
  | plain hs =>
    rw [Nat.zero_add]
    exact plain_append hs ht
  | @slot u v m hu hv hsep' ih =>
    -- behind the first placeholder stands `v`, or the second text if `v` is empty
    rw [String.append_assoc, Nat.add_right_comm]
    refine .slot hu ih ?_
    by_cases hv : v = ""
    · rw [hv, String.empty_append]
      exact hsep
    · exact hsep'.append hv

/-- Texts that are written out may stand before and behind one with placeholders. -/
theorem preceded {before : List Char} (hs : Slotted s n)
    (hbefore : scansPlain false before = true) : Slotted (String.ofList before ++ s) n :=
  plain_append (plain_ofList hbefore) hs

theorem followed {after : List Char} (hs : Slotted s n) (hafter : scansPlain false after = true)
    (hsep : startsApart after = true) : Slotted (s ++ String.ofList after) n :=
  hs.append (.plain (plain_ofList hafter)) (separate_ofList hsep)

theorem enclosed {before after : List Char} (hs : Slotted s n)
    (hbefore : scansPlain false before = true) (hafter : scansPlain false after = true)
    (hsep : startsApart after = true) :
    Slotted (String.ofList before ++ s ++ String.ofList after) n :=
  (hs.preceded hbefore).followed hafter hsep

/-- A separator keeps the digits of the second text away from the first one. -/
theorem append_append (hs : Slotted s m) (hsep : Plain sep) (hseparate : Separate sep)
    (hne : sep ≠ "") (ht : Slotted t n) : Slotted (s ++ sep ++ t) (m + n) := by
  rw [String.append_assoc]
  exact hs.append (plain_append hsep ht) (hseparate.append hne)

/-- A text that is written out, with one placeholder. -/
theorem single (before after : List Char) (hbefore : scansPlain false before = true)
    (hafter : scansPlain false after = true) (hsep : startsApart after = true) :
    Slotted (String.ofList (before ++ '?' :: after)) 1 := by
  rw [String.ofList_append, String.ofList_cons, ← String.append_assoc]
  exact .slot (plain_ofList hbefore) (.plain (plain_ofList hafter)) (separate_ofList hsep)

/-- A placeholder. -/
theorem one : Slotted "?" 1 := single [] [] (by decide) (by decide) (by decide)

end Slotted

theorem slotted_placeholders (n : Nat) : Slotted (placeholders n) n := by
  rw [placeholders]
  induction n with
  | zero => exact .plain (plain_ofList (by decide))
  | succ n ih =>
    cases n with
    | zero => exact .one
    | succ n =>
      rw [List.replicate_succ, List.replicate_succ, Text.joinWith_cons_cons, Nat.add_comm]
      rw [List.replicate_succ] at ih
      exact Slotted.one.append_append (plain_ofList (by decide)) (separate_ofList (by decide))
        (by decide) ih

/-! ### What a scan finds -/

theorem toList_slot (s t : String) : (s ++ "?" ++ t).toList = s.toList ++ '?' :: t.toList := by
  simp

theorem marked_slot {s : String} (hs : Plain s) (t : String) :
    marked false (s ++ "?" ++ t).toList =
      marked false s.toList ++ ('?', false) :: marked false t.toList := by
  rw [toList_slot, marked_append, hs.closed]
  rfl

theorem head?_marked (quoted : Bool) (cs : List Char) :
    (marked quoted cs).head? = cs.head?.map (·, quoted) := by
  cases cs <;> rfl

namespace Slotted

variable {s : String} {n : Nat}

/-- Every literal is left. -/
theorem closed (h : Slotted s n) : quotedAfter false s.toList = false := by
  induction h with
  | plain hs => exact hs.closed
  | slot hs ht hsep ih =>
    rw [toList_slot, quotedAfter_append, hs.closed]
    exact ih

/-- The question marks outside of literals are the placeholders. -/
theorem count (h : Slotted s n) : (marked false s.toList).count ('?', false) = n := by
  induction h with
  | plain hs => exact List.count_eq_zero.mpr hs.slotless
  | slot hs ht hsep ih =>
    rw [marked_slot hs, List.count_append, List.count_eq_zero.mpr hs.slotless,
      List.count_cons_self, ih, Nat.zero_add]

/-- No digit stands behind a placeholder. -/
theorem separated (h : Slotted s n) {before after : List (Char × Bool)}
    (hs : marked false s.toList = before ++ ('?', false) :: after) :
    ∀ c ∈ after.head?, c.1.isDigit = false := by
  induction h generalizing before with
  | plain hplain =>
    refine absurd ?_ hplain.slotless
    rw [hs]
    exact List.mem_append_right _ List.mem_cons_self
  | @slot u v n hu hv hsep ih =>
    -- the placeholder is the first one, or one of those behind it
    have hfirst : ∀ c ∈ (marked false v.toList).head?, c.1.isDigit = false := by
      intro c hc
      rw [head?_marked, Option.mem_def, Option.map_eq_some_iff] at hc
      obtain ⟨d, hd, rfl⟩ := hc
      exact hsep d hd
    rw [marked_slot hu] at hs
    rcases List.append_eq_append_iff.mp hs with ⟨more, -, hmore⟩ | ⟨more, hplain, hmore⟩
    · cases more with
      | nil =>
        cases hmore
        exact hfirst
      | cons c more =>
        rw [List.cons_append] at hmore
        exact ih (List.cons.inj hmore).2
    · cases more with
      | nil =>
        cases hmore
        exact hfirst
      | cons c more =>
        rw [List.cons_append] at hmore
        refine absurd ?_ hu.slotless
        rw [hplain, (List.cons.inj hmore).1]
        exact List.mem_append_right _ List.mem_cons_self

end Slotted

/-! ### Numbers in the place of placeholders -/

/-- The number of a placeholder as it is written. -/
def numberText (k : Nat) : List Char := '$' :: Nat.toDigits 10 k

/-- Texts with `$k`, `$(k + 1)` and so on between neighbours. -/
def numberedJoin : Nat → List String → String
  | _, [] => ""
  | _, [s] => s
  | k, s :: t :: rest => s ++ "$" ++ toString k ++ numberedJoin (k + 1) (t :: rest)

/-- The numbers behind the dollar signs outside of literals. -/
def references : Bool → List Char → List Nat
  | _, [] => []
  | quoted, c :: cs =>
    if c = '$' ∧ quoted = false then
      Nat.ofDigitChars 10 (cs.takeWhile Char.isDigit) 0 :: references quoted cs
    else references (if c = '\x27' then !quoted else quoted) cs

theorem finalize_postgres (s : String) :
    Dialect.postgres.finalize s =
      String.ofList (rewritePlaceholders numberText false 0 s.toList) := rfl

theorem rewritePlaceholders_append (render : Nat → List Char) {quoted : Bool} (k : Nat)
    {cs : List Char} (hcs : ('?', false) ∉ marked quoted cs) (ds : List Char) :
    rewritePlaceholders render quoted k (cs ++ ds) =
      cs ++ rewritePlaceholders render (quotedAfter quoted cs) k ds := by
  induction cs generalizing quoted with
  | nil => rfl
  | cons c cs ih =>
    rw [marked, List.mem_cons, not_or] at hcs
    obtain ⟨hc, hcs⟩ := hcs
    rw [List.cons_append, List.cons_append, rewritePlaceholders, quotedAfter]
    by_cases hquote : c = '\x27'
    · rw [if_pos hquote] at hcs
      rw [if_pos hquote, if_pos hquote, ih hcs]
    · have hslot : ¬(c = '?' ∧ quoted = false) := by
        rintro ⟨rfl, rfl⟩
        exact hc rfl
      rw [if_neg hquote] at hcs
      rw [if_neg hquote, if_neg hslot, if_neg hquote, ih hcs]

theorem rewritePlaceholders_slot (render : Nat → List Char) (k : Nat) {s : String} (hs : Plain s)
    (t : String) :
    rewritePlaceholders render false k (s ++ "?" ++ t).toList =
      s.toList ++ (render (k + 1) ++ rewritePlaceholders render false (k + 1) t.toList) := by
  rw [toList_slot, rewritePlaceholders_append render k hs.slotless, hs.closed]
  rfl

theorem rewritePlaceholders_plain (render : Nat → List Char) (k : Nat) {s : String}
    (hs : Plain s) : rewritePlaceholders render false k s.toList = s.toList := by
  have h := rewritePlaceholders_append render k hs.slotless []
  rw [List.append_nil] at h
  rw [h]
  exact List.append_nil _

theorem references_append {quoted : Bool} {cs : List Char}
    (hcs : ('$', false) ∉ marked quoted cs) (ds : List Char) :
    references quoted (cs ++ ds) = references (quotedAfter quoted cs) ds := by
  induction cs generalizing quoted with
  | nil => rfl
  | cons c cs ih =>
    rw [marked, List.mem_cons, not_or] at hcs
    obtain ⟨hc, hcs⟩ := hcs
    have hdollar : ¬(c = '$' ∧ quoted = false) := by
      rintro ⟨rfl, rfl⟩
      exact hc rfl
    rw [List.cons_append, Sql.references, if_neg hdollar, quotedAfter]
    exact ih hcs

theorem takeWhile_isDigit_toDigits (k : Nat) {cs : List Char}
    (hcs : ∀ c ∈ cs.head?, c.isDigit = false) :
    (Nat.toDigits 10 k ++ cs).takeWhile Char.isDigit = Nat.toDigits 10 k := by
  have hdigits : ∀ c ∈ Nat.toDigits 10 k, c.isDigit = true :=
    fun c hc => Nat.isDigit_of_mem_toDigits (by decide) (by decide) hc
  rw [List.takeWhile_append_of_pos hdigits]
  cases cs with
  | nil => exact List.append_nil _
  | cons c cs =>
    rw [List.takeWhile_cons_of_neg (by rw [hcs c rfl]; decide), List.append_nil]

/-- A number is read off if no digit follows. -/
theorem references_numberText (k : Nat) {cs : List Char}
    (hcs : ∀ c ∈ cs.head?, c.isDigit = false) :
    references false (numberText k ++ cs) = k :: references false cs := by
  have hnot : ∀ c : Char, c.isDigit = false → c ∉ Nat.toDigits 10 k := by
    intro c hc hmem
    rw [Nat.isDigit_of_mem_toDigits (by decide) (by decide) hmem] at hc
    cases hc
  have hdollar : ('$', false) ∉ marked false (Nat.toDigits 10 k) :=
    fun hm => hnot '$' (by decide) (mem_of_mem_marked hm)
  rw [numberText, List.cons_append, references, if_pos ⟨rfl, rfl⟩,
    takeWhile_isDigit_toDigits k hcs, Nat.ofDigitChars_ten_toDigits, references_append hdollar,
    quotedAfter_of_notMem false (hnot _ (by decide))]

/-- With numbers in the place of placeholders, a text that starts with no digit still
does not. -/
theorem isDigit_head?_rewritePlaceholders {s : String} (hs : Separate s) (k : Nat) :
    ∀ c ∈ (rewritePlaceholders numberText false k s.toList).head?, c.isDigit = false := by
  intro c hc
  cases h : s.toList with
  | nil =>
    rw [h] at hc
    cases hc
  | cons d ds =>
    have hd : d.isDigit = false := hs d (by rw [h]; rfl)
    rw [h, rewritePlaceholders] at hc
    by_cases hquote : d = '\x27'
    · rw [if_pos hquote] at hc
      cases hc
      exact hd
    · rw [if_neg hquote] at hc
      by_cases hslot : d = '?' ∧ false = false
      · rw [if_pos hslot] at hc
        cases hc
        rfl
      · rw [if_neg hslot] at hc
        cases hc
        exact hd

namespace Slotted

variable {s : String} {n : Nat}

/-- **Each placeholder becomes its number, from left to right, and nothing else
changes.** -/
theorem exists_pieces (h : Slotted s n) : ∃ pieces : List String,
    pieces.length = n + 1 ∧ (∀ piece ∈ pieces, Plain piece) ∧ Text.joinWith "?" pieces = s ∧
      ∀ k, String.ofList (rewritePlaceholders numberText false k s.toList) =
        numberedJoin (k + 1) pieces := by
  induction h with
  | @plain s hs =>
    refine ⟨[s], rfl, ?_, rfl, fun k => ?_⟩
    · intro piece hpiece
      rw [List.mem_singleton.mp hpiece]
      exact hs
    · rw [rewritePlaceholders_plain _ _ hs, String.ofList_toList]
      rfl
  | @slot s t n hs ht hsep ih =>
    obtain ⟨pieces, hlength, hpieces, hjoin, hnumbered⟩ := ih
    -- there is a piece behind the placeholder, be it empty
    cases pieces with
    | nil => cases hlength
    | cons piece pieces =>
      refine ⟨s :: piece :: pieces, by rw [List.length_cons, hlength], ?_, ?_, fun k => ?_⟩
      · intro u hu
        rcases List.mem_cons.mp hu with rfl | hu
        · exact hs
        · exact hpieces u hu
      · rw [Text.joinWith_cons_cons, hjoin]
      · rw [rewritePlaceholders_slot _ _ hs, String.ofList_append, String.ofList_append,
          String.ofList_toList, hnumbered, numberedJoin, ← String.append_assoc]
        congr 1
        rw [numberText, String.append_assoc, Nat.toString_eq_ofList_toDigits,
          ← String.ofList_append]
        rfl

/-- A question mark inside a literal stays. -/
example : Dialect.postgres.finalize "doc ->> 'a?' = ? AND id = ?" =
    "doc ->> 'a?' = $1 AND id = $2" := by rfl

/-- **The numbers in the place of the placeholders are read off again**, in order. -/
theorem references_finalize (h : Slotted s n) :
    references false (Dialect.postgres.finalize s).toList = List.range' 1 n := by
  -- the count starts anywhere, for the texts behind the first placeholder
  have hfrom : ∀ k, references false (rewritePlaceholders numberText false k s.toList) =
      List.range' (k + 1) n := by
    induction h with
    | @plain s hs =>
      intro k
      have hdollar := references_append hs.dollarless []
      rw [List.append_nil, hs.closed] at hdollar
      rw [rewritePlaceholders_plain _ _ hs, hdollar]
      rfl
    | @slot s t n hs ht hsep ih =>
      intro k
      rw [rewritePlaceholders_slot _ _ hs, references_append hs.dollarless, hs.closed,
        references_numberText _ (isDigit_head?_rewritePlaceholders hsep _), ih]
      rfl
  rw [finalize_postgres, String.toList_ofList]
  exact hfrom 0

/-- A plain text behind one with placeholders stays as it is. -/
theorem rewritePlaceholders_append_plain (h : Slotted s n) (render : Nat → List Char) (k : Nat)
    {t : String} (ht : Plain t) : rewritePlaceholders render false k (s ++ t).toList =
      rewritePlaceholders render false k s.toList ++ t.toList := by
  induction h generalizing k with
  | @plain s hs =>
    rw [rewritePlaceholders_plain _ _ (hs.append ht), rewritePlaceholders_plain _ _ hs,
      String.toList_append]
  | @slot s u n hs hu hsep ih =>
    have htext : s ++ "?" ++ u ++ t = s ++ "?" ++ (u ++ t) := String.append_assoc
    rw [htext, rewritePlaceholders_slot _ _ hs, rewritePlaceholders_slot _ _ hs, ih,
      List.append_assoc, List.append_assoc]

end Slotted

/-! ### Fragments -/

namespace Fragment

/-- **A fragment has one value for each placeholder, and their order is the same.**  Its
text leaves every literal; the question marks outside of literals are as many as there
are values, and no digit stands behind one.  PostgreSQL is given the same text with `$1`,
`$2` and so on in the place of these question marks, and reads these numbers. -/
structure Aligned (f : Fragment) : Prop where
  closed : quotedAfter false f.sql.toList = false
  count : (marked false f.sql.toList).count ('?', false) = f.params.length
  separated : ∀ before after : List (Char × Bool),
    marked false f.sql.toList = before ++ ('?', false) :: after →
      ∀ c ∈ after.head?, c.1.isDigit = false
  numbered : ∃ pieces : List String,
    pieces.length = f.params.length + 1 ∧ (∀ piece ∈ pieces, Plain piece) ∧
      f.sql = Text.joinWith "?" pieces ∧ Dialect.postgres.finalize f.sql = numberedJoin 1 pieces
  references : references false (Dialect.postgres.finalize f.sql).toList =
    List.range' 1 f.params.length

/-- The text of a fragment has a placeholder for each value. -/
def IsSlotted (f : Fragment) : Prop := Slotted f.sql f.params.length

/-- A fragment without text binds nothing. -/
theorem IsSlotted.eq_empty {f : Fragment} (hf : f.IsSlotted) (hempty : f.isEmpty = true) :
    f = empty := by
  obtain ⟨sql, params⟩ := f
  obtain rfl : sql = "" := String.isEmpty_iff.mp hempty
  obtain rfl : params = [] := List.length_eq_zero_iff.mp hf.count.symm
  rfl

theorem IsSlotted.aligned {f : Fragment} (hf : f.IsSlotted) : f.Aligned := by
  obtain ⟨pieces, hlength, hpieces, hjoin, hnumbered⟩ := hf.exists_pieces
  refine ⟨hf.closed, hf.count, fun before after => hf.separated, ?_, hf.references_finalize⟩
  refine ⟨pieces, hlength, hpieces, hjoin.symm, ?_⟩
  rw [finalize_postgres]
  exact hnumbered 0

/-! ### Values in the place of placeholders -/

/-- What is written into a fragment in the place of its `n`-th placeholder. -/
def written (f : Fragment) (n : Nat) : List Char :=
  match f.params[n - 1]? with
  | some v => v.literal.toList
  | none => ['?']

theorem toList_inline (f : Fragment) :
    f.inline.toList = rewritePlaceholders f.written false 0 f.sql.toList := String.toList_ofList

/-- Nothing is written into a plain text. -/
theorem inline_raw {s : String} (hs : Plain s) : (raw s).inline = s := by
  rw [← String.toList_inj, toList_inline]
  exact rewritePlaceholders_plain _ _ hs

/-- **Nothing is written into a plain text in front of a fragment.** -/
theorem inline_raw_append {s : String} (hs : Plain s) (f : Fragment) :
    (raw s ++ f).inline = s ++ f.inline := by
  have hscan := rewritePlaceholders_append f.written 0 hs.slotless f.sql.toList
  rw [hs.closed] at hscan
  rw [← String.toList_inj, String.toList_append, toList_inline, toList_inline, sql_append,
    String.toList_append]
  exact hscan

/-- **Nothing is written into a plain text behind a fragment.** -/
theorem IsSlotted.inline_append_raw {f : Fragment} (hf : f.IsSlotted) {s : String} (hs : Plain s) :
    (f ++ raw s).inline = f.inline ++ s := by
  have hwritten : (f ++ raw s).written = f.written := by
    funext n
    simp only [written, params_append, show (raw s).params = [] from rfl, List.append_nil]
  rw [← String.toList_inj, String.toList_append, toList_inline, toList_inline, hwritten, sql_append]
  exact hf.rewritePlaceholders_append_plain _ _ hs

end Fragment

end DocSearch.Sql
