import DocSearch.Sql.Dialect

/-!
# Texts without placeholders

A scan of a text from left to right knows of each character whether it stands inside a
literal; a quote that is written twice leaves a literal and enters it again at once.  A
question mark outside of literals is a placeholder, and a dollar sign there starts the
number of one.  A text is plain if it has neither and leaves every literal that it enters.

## Main definitions

* `quotedAfter`, `marked` — the scan of a text.
* `Plain` — texts without placeholders.
* `scansPlain` — whether a text that is written out is plain.
* `Bare` — texts that the scan just passes over.

## Main results

* `Plain.append`, `Plain.joinWith` — plain texts one after the other are plain.
* `plain_quoteLiteral` — every literal is plain.
-/

namespace DocSearch.Sql

/-! ### The scan -/

/-- Whether a scan that starts inside a literal if `quoted` ends inside one. -/
def quotedAfter : Bool → List Char → Bool
  | quoted, [] => quoted
  | quoted, c :: cs => quotedAfter (if c = '\x27' then !quoted else quoted) cs

/-- Each character with whether it stands inside a literal. -/
def marked : Bool → List Char → List (Char × Bool)
  | _, [] => []
  | quoted, c :: cs => (c, quoted) :: marked (if c = '\x27' then !quoted else quoted) cs

theorem quotedAfter_append (quoted : Bool) (cs ds : List Char) :
    quotedAfter quoted (cs ++ ds) = quotedAfter (quotedAfter quoted cs) ds := by
  induction cs generalizing quoted with
  | nil => rfl
  | cons c cs ih => exact ih _

theorem marked_append (quoted : Bool) (cs ds : List Char) :
    marked quoted (cs ++ ds) = marked quoted cs ++ marked (quotedAfter quoted cs) ds := by
  induction cs generalizing quoted with
  | nil => rfl
  | cons c cs ih =>
    show (c, quoted) :: marked _ (cs ++ ds) = (c, quoted) :: (marked _ cs ++ _)
    rw [ih]
    rfl

theorem mem_of_mem_marked {quoted : Bool} {cs : List Char} {m : Char × Bool}
    (hm : m ∈ marked quoted cs) : m.1 ∈ cs := by
  induction cs generalizing quoted with
  | nil => cases hm
  | cons c cs ih =>
    rcases List.mem_cons.mp hm with rfl | hm
    · exact List.mem_cons_self
    · exact List.mem_cons_of_mem _ (ih hm)

theorem quotedAfter_of_notMem (quoted : Bool) {cs : List Char} (h : '\x27' ∉ cs) :
    quotedAfter quoted cs = quoted := by
  induction cs with
  | nil => rfl
  | cons c cs ih =>
    rw [List.mem_cons, not_or] at h
    rw [quotedAfter, if_neg (Ne.symm h.1)]
    exact ih h.2

/-! ### Plain texts -/

/-- A text without placeholders and without dollar signs outside of literals that leaves
every literal it enters. -/
structure Plain (s : String) : Prop where
  closed : quotedAfter false s.toList = false
  slotless : ('?', false) ∉ marked false s.toList
  dollarless : ('$', false) ∉ marked false s.toList

/-- Whether a scan finds nothing that is not plain. -/
def scansPlain : Bool → List Char → Bool
  | quoted, [] => !quoted
  | quoted, c :: cs =>
    if c = '\x27' then scansPlain (!quoted) cs
    else (quoted || (c != '?' && c != '$')) && scansPlain quoted cs

theorem of_scansPlain {quoted : Bool} {cs : List Char} (h : scansPlain quoted cs = true) :
    quotedAfter quoted cs = false ∧ ('?', false) ∉ marked quoted cs ∧
      ('$', false) ∉ marked quoted cs := by
  induction cs generalizing quoted with
  | nil =>
    unfold scansPlain at h
    rw [Bool.not_eq_true'] at h
    exact ⟨h, List.not_mem_nil, List.not_mem_nil⟩
  | cons c cs ih =>
    unfold scansPlain at h
    by_cases hquote : c = '\x27'
    · rw [if_pos hquote] at h
      obtain ⟨hclosed, hslot, hdollar⟩ := ih h
      rw [quotedAfter, marked, if_pos hquote, hquote]
      refine ⟨hclosed, ?_, ?_⟩
      · exact List.not_mem_cons_of_ne_of_not_mem (by simp) hslot
      · exact List.not_mem_cons_of_ne_of_not_mem (by simp) hdollar
    · rw [if_neg hquote, Bool.and_eq_true] at h
      obtain ⟨hc, h⟩ := h
      obtain ⟨hclosed, hslot, hdollar⟩ := ih h
      rw [quotedAfter, marked, if_neg hquote]
      refine ⟨hclosed, ?_, ?_⟩
      · refine List.not_mem_cons_of_ne_of_not_mem (fun heq => ?_) hslot
        cases heq
        exact absurd hc (by decide)
      · refine List.not_mem_cons_of_ne_of_not_mem (fun heq => ?_) hdollar
        cases heq
        exact absurd hc (by decide)

/-- A text that is written out is found plain by a scan of its characters. -/
theorem plain_ofList {cs : List Char} (h : scansPlain false cs = true) :
    Plain (String.ofList cs) := by
  obtain ⟨hclosed, hslot, hdollar⟩ := of_scansPlain h
  refine ⟨?_, ?_, ?_⟩
  · rw [String.toList_ofList]
    exact hclosed
  · rw [String.toList_ofList]
    exact hslot
  · rw [String.toList_ofList]
    exact hdollar

/-- A character that means nothing to the scan. -/
def isBare (c : Char) : Bool := c != '\x27' && c != '?' && c != '$'

/-- A text all of whose characters mean nothing to the scan. -/
def Bare (s : String) : Prop := ∀ c ∈ s.toList, isBare c = true

theorem bare_ofList {cs : List Char} (h : cs.all isBare = true) : Bare (String.ofList cs) := by
  rw [Bare, String.toList_ofList]
  exact List.all_eq_true.mp h

theorem Bare.append {s t : String} (hs : Bare s) (ht : Bare t) : Bare (s ++ t) := by
  intro c hc
  rw [String.toList_append] at hc
  rcases List.mem_append.mp hc with hc | hc
  · exact hs c hc
  · exact ht c hc

theorem Bare.notMem {s : String} (hs : Bare s) {c : Char} (hc : isBare c = false) :
    c ∉ s.toList := by
  intro hmem
  rw [hs c hmem] at hc
  cases hc

theorem Bare.plain {s : String} (hs : Bare s) : Plain s := by
  refine ⟨quotedAfter_of_notMem false (hs.notMem rfl), ?_, ?_⟩
  · exact fun hm => hs.notMem rfl (mem_of_mem_marked hm)
  · exact fun hm => hs.notMem rfl (mem_of_mem_marked hm)

/-- A bare text may stand anywhere in a plain one, also inside a literal. -/
theorem Bare.between {s : String} (hs : Bare s) {before after : List Char}
    (h : scansPlain false (before ++ after) = true) :
    Plain (String.ofList before ++ s ++ String.ofList after) := by
  obtain ⟨hclosed, hslot, hdollar⟩ := of_scansPlain h
  have hquoted : ∀ quoted, quotedAfter quoted s.toList = quoted :=
    fun quoted => quotedAfter_of_notMem quoted (hs.notMem rfl)
  have hmarked : ∀ {c : Char}, isBare c = false → (c, false) ∉ marked false (before ++ after) →
      (c, false) ∉ marked false (before ++ s.toList ++ after) := by
    intro c hc hm
    rw [marked_append, List.mem_append, not_or] at hm
    rw [marked_append, marked_append, quotedAfter_append, hquoted, List.mem_append,
      List.mem_append, not_or, not_or]
    exact ⟨⟨hm.1, fun hmem => hs.notMem hc (mem_of_mem_marked hmem)⟩, hm.2⟩
  have htext : (String.ofList before ++ s ++ String.ofList after).toList =
      before ++ s.toList ++ after := by
    rw [String.toList_append, String.toList_append, String.toList_ofList, String.toList_ofList]
  refine ⟨?_, ?_, ?_⟩
  · rw [quotedAfter_append] at hclosed
    rw [htext, quotedAfter_append, quotedAfter_append, hquoted]
    exact hclosed
  · rw [htext]
    exact hmarked rfl hslot
  · rw [htext]
    exact hmarked rfl hdollar

namespace Plain

variable {s t : String}

theorem append (hs : Plain s) (ht : Plain t) : Plain (s ++ t) := by
  -- the scan of the second text starts outside of literals
  have hmarked : marked false (s ++ t).toList = marked false s.toList ++ marked false t.toList := by
    rw [String.toList_append, marked_append, hs.closed]
  refine ⟨?_, ?_, ?_⟩
  · rw [String.toList_append, quotedAfter_append, hs.closed, ht.closed]
  · rw [hmarked, List.mem_append, not_or]
    exact ⟨hs.slotless, ht.slotless⟩
  · rw [hmarked, List.mem_append, not_or]
    exact ⟨hs.dollarless, ht.dollarless⟩

/-- Texts that are written out may stand before and behind a plain one. -/
theorem preceded {before : List Char} (hs : Plain s) (hbefore : scansPlain false before = true) :
    Plain (String.ofList before ++ s) :=
  (plain_ofList hbefore).append hs

theorem followed {after : List Char} (hs : Plain s) (hafter : scansPlain false after = true) :
    Plain (s ++ String.ofList after) :=
  hs.append (plain_ofList hafter)

theorem enclosed {before after : List Char} (hs : Plain s)
    (hbefore : scansPlain false before = true) (hafter : scansPlain false after = true) :
    Plain (String.ofList before ++ s ++ String.ofList after) :=
  (hs.preceded hbefore).followed hafter

theorem joinWith {sep : String} (hsep : Plain sep) {parts : List String}
    (hparts : ∀ s ∈ parts, Plain s) : Plain (Text.joinWith sep parts) := by
  induction parts with
  | nil => exact (plain_ofList (by decide) : Plain "")
  | cons s rest ih =>
    have hs := hparts s List.mem_cons_self
    cases rest with
    | nil => exact hs
    | cons t rest =>
      rw [Text.joinWith_cons_cons]
      exact (hs.append hsep).append (ih fun u hu => hparts u (List.mem_cons_of_mem _ hu))

end Plain

/-- Quotes that are written twice are left again, and what stands between them is inside
the literal. -/
theorem marked_doubled (cs : List Char) :
    quotedAfter true (doubled '\x27' cs) = true ∧
      ∀ c, c ≠ '\x27' → (c, false) ∉ marked true (doubled '\x27' cs) := by
  induction cs with
  | nil => exact ⟨rfl, fun c _ hm => nomatch hm⟩
  | cons d cs ih =>
    obtain ⟨hclosed, hmarked⟩ := ih
    by_cases hd : d = '\x27'
    · -- only the second of the two quotes stands outside of the literal
      subst hd
      rw [doubled_cons_self]
      refine ⟨hclosed, fun c hc hm => ?_⟩
      rcases List.mem_cons.mp hm with h | hm
      · cases h
      · rcases List.mem_cons.mp hm with h | hm
        · exact hc (congrArg Prod.fst h)
        · exact hmarked c hc hm
    · rw [doubled_cons_of_ne hd]
      refine ⟨?_, fun c hc hm => ?_⟩
      · rw [quotedAfter, if_neg hd]
        exact hclosed
      · rw [marked, if_neg hd] at hm
        rcases List.mem_cons.mp hm with h | hm
        · cases h
        · exact hmarked c hc hm

/-- **A literal is plain, whatever text it holds.** -/
theorem plain_quoteLiteral (s : String) : Plain (quoteLiteral s) := by
  obtain ⟨hclosed, hmarked⟩ := marked_doubled s.toList
  have htext : (quoteLiteral s).toList = '\x27' :: (doubled '\x27' s.toList ++ ['\x27']) := by
    rw [quoteLiteral, enquote, String.toList_ofList]
    rfl
  have hmarks : marked false (quoteLiteral s).toList =
      ('\x27', false) :: (marked true (doubled '\x27' s.toList) ++ [('\x27', true)]) := by
    rw [htext, marked, if_pos rfl, marked_append]
    show _ :: (_ ++ marked (quotedAfter true _) _) = _
    rw [hclosed]
    rfl
  have hnot : ∀ c, c ≠ '\x27' → (c, false) ∉ marked false (quoteLiteral s).toList := by
    intro c hc hm
    rw [hmarks] at hm
    rcases List.mem_cons.mp hm with h | hm
    · exact hc (congrArg Prod.fst h)
    · rcases List.mem_append.mp hm with hm | hm
      · exact hmarked c hc hm
      · simp at hm
  refine ⟨?_, hnot '?' (by decide), hnot '$' (by decide)⟩
  rw [htext, quotedAfter, if_pos rfl, quotedAfter_append]
  show quotedAfter (quotedAfter true _) _ = false
  rw [hclosed]
  rfl

theorem mem_of_mem_doubled {quote c : Char} {cs : List Char} (hc : c ∈ doubled quote cs) :
    c = quote ∨ c ∈ cs := by
  induction cs with
  | nil => cases hc
  | cons d cs ih =>
    by_cases hd : d = quote
    · subst hd
      rw [doubled_cons_self] at hc
      rcases List.mem_cons.mp hc with rfl | hc
      · exact .inl rfl
      · rcases List.mem_cons.mp hc with rfl | hc
        · exact .inl rfl
        · exact (ih hc).imp_right (List.mem_cons_of_mem _)
    · rw [doubled_cons_of_ne hd] at hc
      rcases List.mem_cons.mp hc with rfl | hc
      · exact .inr List.mem_cons_self
      · exact (ih hc).imp_right (List.mem_cons_of_mem _)

/-- An identifier is as bare as its name. -/
theorem Bare.quoteIdent {name : String} (hname : Bare name) : Bare (quoteIdent name) := by
  intro c hc
  rw [Sql.quoteIdent, enquote, String.toList_ofList] at hc
  have hquote : isBare '"' = true := rfl
  rcases List.mem_append.mp hc with hc | hc
  · rcases List.mem_cons.mp hc with rfl | hc
    · exact hquote
    · rcases mem_of_mem_doubled hc with rfl | hc
      · exact hquote
      · exact hname c hc
  · rw [List.mem_singleton.mp hc]
    exact hquote

end DocSearch.Sql
