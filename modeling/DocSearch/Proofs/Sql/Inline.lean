import DocSearch.Proofs.Decimal.Spelling
import DocSearch.Proofs.Sql.Binding
import DocSearch.Proofs.Sql.Rendering

/-!
# Values written into a text

For people to read, the values of a condition are written into its text in the place of the
placeholders.  A value may hold anything, quotes and question marks too, and stands between
texts that hold literals themselves.

On both sides of every placeholder there is a break.  So nothing runs into what is written
there, and the tokens of the text are those of the text with placeholders, with the tokens of
a value in the place of each placeholder: one literal for a text, and for a number its
spelling.

## Main definitions

* `Value.tokens` — the tokens that a value is written with.
* `withValues` — tokens with those of values in the place of the placeholders.
* `Spaced` — texts with a break on both sides of every placeholder.

## Main results

* `Value.tokenize_literal` — a value that is written out is read as its tokens.
* `Spaced.tokenize_rewritten` — a spaced text is read alike with values in it.
* `Condition.isSpaced_render` — the text of a condition is spaced.
-/

namespace DocSearch

namespace Sql

/-! ### Tokens of values -/

/-- The tokens of a number as it is spelt: a sign in front of it is a token of its own. -/
def numeralTokens (s : String) : List Token :=
  match s.toList with
  | '-' :: cs => [.sign "-", .word (String.ofList cs)]
  | _ => [.word s]

/-- The tokens that a value is written with: a text is one literal, and a number its spelling. -/
def Value.tokens : Value → List Token
  | .text s => [.literal s]
  | v => numeralTokens v.literal

/-- Tokens with those of values in the place of the placeholders, from left to right. -/
def withValues : List Token → List Value → List Token
  | [], _ => []
  | .placeholder :: ts, v :: vs => v.tokens ++ withValues ts vs
  | t :: ts, vs => t :: withValues ts vs

@[simp] theorem withValues_nil (vs : List Value) : withValues [] vs = [] := by
  cases vs <;> rfl

@[simp] theorem withValues_placeholder (ts : List Token) (v : Value) (vs : List Value) :
    withValues (.placeholder :: ts) (v :: vs) = v.tokens ++ withValues ts vs := rfl

theorem withValues_cons_of_ne {t : Token} (ht : t ≠ .placeholder) (ts : List Token)
    (vs : List Value) : withValues (t :: ts) vs = t :: withValues ts vs := by
  cases t <;> first | rfl | exact absurd rfl ht

/-- Tokens without placeholders stay as they are. -/
theorem withValues_append {ts : List Token} (hts : .placeholder ∉ ts) (us : List Token)
    (vs : List Value) : withValues (ts ++ us) vs = ts ++ withValues us vs := by
  induction ts with
  | nil => rfl
  | cons t ts ih =>
    rw [List.mem_cons, not_or] at hts
    rw [List.cons_append, withValues_cons_of_ne (Ne.symm hts.1), ih hts.2]
    rfl

theorem placeholder_notMem_numeralTokens (s : String) : .placeholder ∉ numeralTokens s := by
  unfold numeralTokens
  split <;> simp

theorem Value.placeholder_notMem_tokens (v : Value) : .placeholder ∉ v.tokens := by
  unfold tokens
  split
  · simp
  · exact placeholder_notMem_numeralTokens _

/-- Where there is a value for each placeholder, none is left. -/
theorem placeholder_notMem_withValues {ts : List Token} {vs : List Value}
    (h : ts.count .placeholder = vs.length) : .placeholder ∉ withValues ts vs := by
  induction ts generalizing vs with
  | nil => simp
  | cons t ts ih =>
    by_cases ht : t = .placeholder
    · subst ht
      rw [List.count_cons_self] at h
      cases vs with
      | nil => cases h
      | cons v vs =>
        rw [withValues_placeholder, List.mem_append, not_or]
        exact ⟨v.placeholder_notMem_tokens, ih (Nat.succ.inj h)⟩
    · rw [List.count_cons_of_ne ht] at h
      rw [withValues_cons_of_ne ht, List.mem_cons, not_or]
      exact ⟨Ne.symm ht, ih h⟩

/-! ### Reading a value -/

theorem isBlank_of_isNumeralChar {c : Char} (hc : isNumeralChar c = true) :
    Text.isBlank c = false := by
  have hval : c.toNat = c.val.toNat := rfl
  have hrange : c.toNat = 46 ∨ 48 ≤ c.toNat ∧ c.toNat ≤ 122 := by
    unfold isNumeralChar Char.isAlphanum Char.isAlpha Char.isUpper Char.isLower Char.isDigit at hc
    simp only [Bool.or_eq_true, Bool.and_eq_true, decide_eq_true_eq, beq_iff_eq,
      UInt32.le_iff_toNat_le, ge_iff_le] at hc
    rcases hc with hc | rfl
    · simp at hc
      omega
    · exact .inl rfl
  simp [Text.isBlank]
  omega

theorem charClass_of_isNumeralChar {c : Char} (hc : isNumeralChar c = true) :
    charClass c = .letter := by
  have hblank := isBlank_of_isNumeralChar hc
  unfold isNumeralChar at hc
  unfold charClass
  rw [hblank, if_neg (by decide), if_pos]
  rw [Bool.or_eq_true] at hc ⊢
  exact hc.imp_left fun h => by rw [h, Bool.true_or]

theorem scan_word (cs : List Char) {ds : List Char} (hds : ∀ c ∈ ds, charClass c = .letter) :
    scan (.word cs) ds = ([], .word (cs ++ ds)) := by
  induction ds generalizing cs with
  | nil => simp
  | cons d ds ih =>
    rw [List.forall_mem_cons] at hds
    rw [scan_cons, Mode.step, if_pos hds.1, ih _ hds.2]
    simp

theorem scan_gap_word {cs : List Char} (hne : cs ≠ []) (hcs : ∀ c ∈ cs, charClass c = .letter) :
    scan .gap cs = ([], .word cs) := by
  cases cs with
  | nil => exact absurd rfl hne
  | cons c cs =>
    rw [List.forall_mem_cons] at hcs
    rw [scan_cons, Mode.step, Mode.start, hcs.1, Mode.startClass, scan_word _ hcs.2]
    rfl

/-- A number that is spelt out is a word, behind its sign if it has one. -/
theorem tokenize_of_isNumeral {s : String} (hs : IsNumeral s) :
    tokenize s = some (numeralTokens s) := by
  obtain ⟨cs, hne, hchars, hs⟩ := hs
  have hletters : ∀ c ∈ cs, charClass c = .letter :=
    fun c hc => charClass_of_isNumeralChar (hchars c hc)
  have hscan : scan .gap cs = ([], .word cs) := scan_gap_word hne hletters
  rcases hs with rfl | rfl
  · have hminus : ∀ ds, cs ≠ '-' :: ds := by
      rintro ds rfl
      exact absurd (hchars '-' List.mem_cons_self) (by decide)
    have htokens : numeralTokens (String.ofList cs) = [.word (String.ofList cs)] := by
      unfold numeralTokens
      rw [String.toList_ofList]
      split
      · next ds => exact absurd rfl (hminus ds)
      · rfl
    rw [tokenize_eq_some_iff, String.toList_ofList, hscan, htokens]
    exact ⟨rfl, rfl⟩
  · -- the first character of the number ends the sign
    have htokens : numeralTokens (String.ofList ('-' :: cs)) =
        [.sign "-", .word (String.ofList cs)] := by
      unfold numeralTokens
      rw [String.toList_ofList]
      rfl
    have hsign : scan .gap ('-' :: cs) = ([.sign "-"], .word cs) := by
      cases cs with
      | nil => exact absurd rfl hne
      | cons c cs =>
        rw [List.forall_mem_cons] at hletters
        have hstart : Mode.step .gap '-' = ([], .sign ['-']) := rfl
        have hstep : Mode.step (.sign ['-']) c = ([.sign "-"], .word [c]) := by
          simp [Mode.step, Mode.flush, Mode.start, Mode.startClass, Mode.pending, hletters.1]
        rw [scan_cons, hstart, scan_cons, hstep, scan_word _ hletters.2]
        rfl
    rw [tokenize_eq_some_iff, String.toList_ofList, hsign, htokens]
    exact ⟨rfl, rfl⟩

/-- **A value that is written out is read as its tokens**, whatever it holds. -/
theorem Value.tokenize_literal (v : Value) : tokenize v.literal = some v.tokens := by
  cases v with
  | null => rfl
  | bool b => cases b <;> rfl
  | integer n => exact tokenize_of_isNumeral (isNumeral_toString _)
  | real x => exact tokenize_of_isNumeral (isNumeral_plainText x)
  | text s => exact tokenize_quoteLiteral s

/-! ### Texts that are cut into tokens without placeholders -/

/-- A plain text that is cut into tokens, none of which is a placeholder. -/
structure Legible (s : String) : Prop where
  plain : Plain s
  tokens : ∃ ts, tokenize s = some ts ∧ .placeholder ∉ ts

/-- Behind the text nothing is pending. -/
def EndsInGap (s : String) : Prop := (scan .gap s.toList).2 = .gap

/-- A text that starts with a break, if with anything, and not with a placeholder. -/
def Detached (s : String) : Prop := ∀ c ∈ s.toList.head?, isBreak c = true ∧ c ≠ '?'

/-- Whether a text that is written out is detached. -/
def startsDetached : List Char → Bool
  | [] => true
  | c :: _ => isBreak c && c != '?'

theorem detached_ofList {cs : List Char} (h : startsDetached cs = true) :
    Detached (String.ofList cs) := by
  intro c hc
  rw [String.toList_ofList] at hc
  cases cs with
  | nil => cases hc
  | cons d ds =>
    cases hc
    simpa [startsDetached] using h

theorem Detached.startsWithBreak {s : String} (hs : Detached s) : startsWithBreak s = true := by
  rw [Sql.startsWithBreak, Option.all_eq_true]
  exact fun c hc => (hs c hc).1

theorem Detached.append {s t : String} (hs : Detached s) (ht : s = "" → Detached t) :
    Detached (s ++ t) := by
  by_cases hne : s = ""
  · rw [hne, String.empty_append]
    exact ht hne
  · intro c hc
    rw [String.toList_append] at hc
    cases h : s.toList with
    | nil => exact absurd (String.toList_eq_nil_iff.mp h) hne
    | cons d ds =>
      rw [h] at hc
      exact hs c (h ▸ hc)

theorem scan_of_endsInGap {s : String} {ts : List Token} (hs : EndsInGap s)
    (hts : tokenize s = some ts) : scan .gap s.toList = (ts, .gap) := by
  rw [tokenize_eq_some_iff, hs, Mode.pending, List.append_nil] at hts
  exact Prod.ext hts.2 hs

theorem EndsInGap.append {s t : String} (ht : EndsInGap t)
    (h : EndsInGap s ∨ (tokenize s).isSome ∧ Detached t ∧ t ≠ "") : EndsInGap (s ++ t) := by
  unfold EndsInGap
  rw [String.toList_append, scan_append]
  rcases h with hs | ⟨hs, hdetached, hne⟩
  · rw [hs]
    exact ht
  · obtain ⟨ts, hts⟩ := Option.isSome_iff_exists.mp hs
    rw [tokenize_eq_some_iff] at hts
    rw [scan_of_startsWithBreak hts.1 hdetached.startsWithBreak hne]
    exact ht

namespace Legible

variable {s t : String}

/-- Legible texts may meet at a break. -/
theorem append (hs : Legible s) (ht : Legible t) (h : EndsInGap s ∨ Detached t) :
    Legible (s ++ t) := by
  obtain ⟨ts, hts, hnots⟩ := hs.tokens
  obtain ⟨us, hus, hnous⟩ := ht.tokens
  refine ⟨hs.plain.append ht.plain, ts ++ us, ?_, by simp [hnots, hnous]⟩
  rcases h with hgap | hdetached
  · exact tokenize_append_of_gap (scan_of_endsInGap hgap hts) hus
  · exact tokenize_append hts hus hdetached.startsWithBreak

theorem isSome_tokenize (hs : Legible s) : (tokenize s).isSome := by
  obtain ⟨ts, hts, -⟩ := hs.tokens
  rw [hts]
  rfl

end Legible

/-- Whether a text that is written out is legible. -/
def scansLegible (cs : List Char) : Bool :=
  scansPlain false cs &&
    (tokenize (String.ofList cs)).any fun ts => decide (.placeholder ∉ ts)

theorem legible_ofList {cs : List Char} (h : scansLegible cs = true) :
    Legible (String.ofList cs) := by
  unfold scansLegible at h
  rw [Bool.and_eq_true, Option.any_eq_true] at h
  obtain ⟨hplain, ts, hts, hnot⟩ := h
  exact ⟨plain_ofList hplain, ts, hts, of_decide_eq_true hnot⟩

/-- A reader takes a value at a placeholder and nowhere else. -/
theorem Reader.values_of_step {r r' : Reader} {t : Token} (h : r.step t = some r') :
    r.values.length = r'.values.length + [t].count .placeholder := by
  cases t with
  | placeholder =>
    simp only [Reader.step] at h
    split at h
    · cases h
    · next hvalues =>
      cases h
      rw [hvalues]
      rfl
  | closing =>
    simp only [Reader.step] at h
    split at h
    · cases h
    · obtain ⟨i, -, rfl⟩ := Option.map_eq_some_iff.mp h
      rfl
  | _ =>
    cases h
    rfl

theorem Reader.values_of_foldlM {ts : List Token} {r r' : Reader}
    (h : ts.foldlM Reader.step r = some r') :
    r.values.length = r'.values.length + ts.count .placeholder := by
  induction ts generalizing r with
  | nil =>
    cases h
    rfl
  | cons t ts ih =>
    rw [List.foldlM_cons] at h
    obtain ⟨next, hstep, h⟩ := Option.bind_eq_some_iff.mp h
    rw [Reader.values_of_step hstep, ih h, ← List.singleton_append (l := ts), List.count_append]
    omega

/-- An operand without values is legible where it is plain. -/
theorem Denotes.legible {s : String} {x : Operand} (hx : Denotes (.raw s) x) (hs : Plain s) :
    Legible s := by
  obtain ⟨is, ⟨ts, hts, hyields⟩, -⟩ := hx
  refine ⟨hs, ts, hts, List.count_eq_zero.mp ?_⟩
  -- there is no value that a placeholder could take
  have hcount := Reader.values_of_foldlM (hyields [] [] [])
  simpa [Fragment.raw, eq_comm] using hcount

/-! ### Texts with placeholders between breaks -/

/-- Legible texts with placeholders for values between them.  In front of each placeholder
nothing is pending, and a break stands behind it. -/
inductive Spaced : String → List Value → Prop where
  /-- A legible text. -/
  | text {s : String} (hs : Legible s) : Spaced s []
  /-- A placeholder behind a legible text. -/
  | slot {s t : String} {vs : List Value} (v : Value) (hs : Legible s) (hgap : EndsInGap s)
    (ht : Spaced t vs) (hdetached : Detached t) : Spaced (s ++ "?" ++ t) (v :: vs)

theorem detached_rewritten {s : String} (hs : Detached s) (render : Nat → List Char) (k : Nat) :
    Detached (String.ofList (rewritePlaceholders render false k s.toList)) := by
  intro c hc
  rw [String.toList_ofList] at hc
  cases h : s.toList with
  | nil =>
    rw [h] at hc
    cases hc
  | cons d ds =>
    have hd := hs d (by rw [h]; rfl)
    have hslot : ¬ (d = '?' ∧ false = false) := fun hd' => hd.2 hd'.1
    rw [h, rewritePlaceholders, if_neg hslot] at hc
    split at hc
    · cases hc
      exact hd
    · cases hc
      exact hd

namespace Spaced

variable {s t sep : String} {vs ws : List Value}

/-- **A spaced text is read alike with values in it**: each placeholder becomes the tokens of
its value. -/
theorem tokenize_rewritten (h : Spaced s vs) :
    ∃ ts, tokenize s = some ts ∧ ts.count .placeholder = vs.length ∧
      ∀ (render : Nat → List Char) (k : Nat),
        (∀ i v, vs[i]? = some v → render (k + i + 1) = v.literal.toList) →
          tokenize (String.ofList (rewritePlaceholders render false k s.toList)) =
            some (withValues ts vs) := by
  induction h with
  | @text s hs =>
    obtain ⟨ts, hts, hnot⟩ := hs.tokens
    refine ⟨ts, hts, List.count_eq_zero.mpr hnot, fun render k _ => ?_⟩
    have hsame : withValues ts [] = ts := by
      simpa using withValues_append hnot [] []
    rw [rewritePlaceholders_plain _ _ hs.plain, String.ofList_toList, hts, hsame]
  | @slot s t vs v hs hgap ht hdetached ih =>
    obtain ⟨ts, hts, hnot⟩ := hs.tokens
    obtain ⟨us, hus, hcount, hrewritten⟩ := ih
    have hscan := scan_of_endsInGap hgap hts
    have hslot : scan .gap "?".toList = ([.placeholder], .gap) := rfl
    refine ⟨ts ++ .placeholder :: us, ?_, ?_, fun render k hrender => ?_⟩
    · rw [String.append_assoc]
      exact tokenize_append_of_gap hscan (tokenize_append_of_gap hslot hus)
    · rw [List.count_append, List.count_eq_zero.mpr hnot, List.count_cons_self, hcount,
        List.length_cons, Nat.zero_add]
    · -- behind the value stands a break, and in front of it nothing is pending
      have hfirst : render (k + 1) = v.literal.toList := hrender 0 v rfl
      have hrest := hrewritten render (k + 1) fun i w hw => by
        rw [← hrender (i + 1) w hw]
        congr 1
        omega
      have hvalue := tokenize_append v.tokenize_literal hrest
        (detached_rewritten hdetached _ _).startsWithBreak
      rw [rewritePlaceholders_slot _ _ hs.plain, hfirst, String.ofList_append,
        String.ofList_append, String.ofList_toList, String.ofList_toList,
        withValues_append hnot, withValues_placeholder]
      exact tokenize_append_of_gap hscan hvalue

theorem legible_append (hs : Legible s) (ht : Spaced t vs) (h : EndsInGap s ∨ Detached t) :
    Spaced (s ++ t) vs := by
  cases ht with
  | text ht => exact .text (hs.append ht h)
  | @slot u t vs v hu hgap ht hdetached =>
    -- what stands in front of the first placeholder starts with a break, or nothing is pending
    have hmeet : EndsInGap s ∨ Detached u ∧ u ≠ "" := by
      rcases h with h | h
      · exact .inl h
      · by_cases hne : u = ""
        · subst hne
          exact absurd rfl (h '?' (by simp)).2
        · refine .inr ⟨fun c hc => h c ?_, hne⟩
          simp [List.head?_append, Option.mem_def.mp hc]
    rw [← String.append_assoc, ← String.append_assoc]
    refine .slot v (hs.append hu (hmeet.imp_right And.left)) (hgap.append ?_) ht hdetached
    exact hmeet.imp_right fun h => ⟨hs.isSome_tokenize, h⟩

/-- **Spaced texts are closed under concatenation**, if the second one starts with a break. -/
theorem append (hs : Spaced s vs) (ht : Spaced t ws) (hdetached : Detached t) :
    Spaced (s ++ t) (vs ++ ws) := by
  induction hs with
  | text hs => exact legible_append hs ht (.inr hdetached)
  | slot v hu hgap hv hdetached' ih =>
    rw [String.append_assoc]
    exact .slot v hu hgap ih (hdetached'.append fun _ => hdetached)

/-- Texts may have a separator between them that starts with a break and leaves nothing
pending. -/
theorem append_append (hs : Spaced s vs) (hsep : Legible sep) (hgap : EndsInGap sep)
    (hdetached : Detached sep) (hne : sep ≠ "") (ht : Spaced t ws) :
    Spaced (s ++ sep ++ t) (vs ++ ws) := by
  rw [String.append_assoc]
  refine hs.append (legible_append hsep ht (.inl hgap)) ?_
  exact hdetached.append fun h => absurd h hne

/-- A placeholder with texts that are written out in front of it and behind it. -/
theorem single (before after : List Char) (v : Value) (hbefore : scansLegible before = true)
    (hgap : EndsInGap (String.ofList before)) (hafter : scansLegible after = true)
    (hdetached : startsDetached after = true) :
    Spaced (String.ofList (before ++ '?' :: after)) [v] := by
  rw [String.ofList_append, String.ofList_cons, ← String.append_assoc]
  exact .slot v (legible_ofList hbefore) hgap (.text (legible_ofList hafter))
    (detached_ofList hdetached)

/-- A placeholder behind a legible text, with texts that are written out on both sides. -/
theorem behind (before after : List Char) (hs : Legible s) (v : Value)
    (hbefore : scansLegible before = true) (hgap : EndsInGap (String.ofList before))
    (hafter : scansLegible after = true) (hdetached : startsDetached after = true)
    (hmeet : startsDetached (before ++ '?' :: after) = true) :
    Spaced (s ++ String.ofList (before ++ '?' :: after)) [v] :=
  legible_append hs (single before after v hbefore hgap hafter hdetached)
    (.inr (detached_ofList hmeet))

/-- Texts that are written out may enclose one with placeholders. -/
theorem enclosed (before after : List Char) (hs : Spaced s vs)
    (hbefore : scansLegible before = true) (hgap : EndsInGap (String.ofList before))
    (hafter : scansLegible after = true) (hdetached : startsDetached after = true) :
    Spaced (String.ofList before ++ s ++ String.ofList after) vs := by
  have hopened := legible_append (legible_ofList hbefore) hs (.inl hgap)
  have hclosed := hopened.append (.text (legible_ofList hafter)) (detached_ofList hdetached)
  rwa [List.append_nil] at hclosed

end Spaced

theorem spaced_placeholders : ∀ vs : List Value, Spaced (placeholders vs.length) vs
  | [] => .text (legible_ofList (by decide))
  | [v] => Spaced.single [] [] v (by decide) rfl (by decide) (by decide)
  | v :: w :: vs => by
    have hfirst : Spaced (String.ofList ['?']) [v] :=
      Spaced.single [] [] v (by decide) rfl (by decide) (by decide)
    have hsep : Legible (String.ofList [',', ' ']) := legible_ofList (by decide)
    exact hfirst.append_append hsep rfl (detached_ofList (by decide)) (by decide)
      (spaced_placeholders (w :: vs))

/-! ### Fragments -/

namespace Fragment

variable {f : Fragment}

/-- The placeholders of a fragment stand between breaks, one for each value. -/
def IsSpaced (f : Fragment) : Prop := Spaced f.sql f.params

theorem isSpaced_empty : empty.IsSpaced := .text (legible_ofList (by decide))

theorem IsSpaced.parenthesized (hf : f.IsSpaced) : f.parenthesized.IsSpaced :=
  hf.enclosed _ _ (by decide) rfl (by decide) (by decide)

theorem IsSpaced.negated (hf : f.IsSpaced) : f.negated.IsSpaced :=
  hf.enclosed _ _ (by decide) rfl (by decide) (by decide)

theorem isSpaced_chain (sep : List Char) (hsep : scansLegible sep = true)
    (hgap : EndsInGap (String.ofList sep)) (hdetached : startsDetached sep = true)
    (hne : String.ofList sep ≠ "") {parts : List Fragment} (hparts : ∀ f ∈ parts, f.IsSpaced) :
    (chain (String.ofList sep) parts).IsSpaced := by
  induction parts with
  | nil => exact isSpaced_empty
  | cons f rest ih =>
    have hf := hparts f List.mem_cons_self
    cases rest with
    | nil => exact hf
    | cons g rest =>
      have hrest := ih fun f hf => hparts f (List.mem_cons_of_mem _ hf)
      exact hf.append_append (legible_ofList hsep) hgap (detached_ofList hdetached) hne hrest

theorem isSpaced_join (sep : List Char) (hsep : scansLegible sep = true)
    (hgap : EndsInGap (String.ofList sep)) (hdetached : startsDetached sep = true)
    (hne : String.ofList sep ≠ "") {parts : List Fragment} (hparts : ∀ f ∈ parts, f.IsSpaced) :
    (join (String.ofList sep) parts).IsSpaced :=
  isSpaced_chain sep hsep hgap hdetached hne fun f hf => hparts f (List.mem_filter.mp hf).1

/-- The text with its values written in is read as the text with a value for each placeholder. -/
theorem IsSpaced.inline_read (hf : f.IsSpaced) : ∃ ts, tokenize f.sql = some ts ∧
    ts.count .placeholder = f.params.length ∧
      tokenize f.inline = some (withValues ts f.params) := by
  obtain ⟨ts, hts, hcount, hrewritten⟩ := hf.tokenize_rewritten
  refine ⟨ts, hts, hcount, hrewritten f.written 0 fun i v hv => ?_⟩
  simp [written, hv]

end Fragment

end Sql

/-! ### Conditions -/

open Sql

variable (d : Dialect)

theorem legible_fieldValue (field : String) : Legible (d.fieldValue field) :=
  (d.denotes_fieldValue field).legible (plain_fieldValue d field)

theorem legible_fieldText (field : String) : Legible (d.fieldText field) :=
  (d.denotes_fieldText field).legible (plain_fieldText d field)

theorem legible_numeric (field : String) : Legible (d.numeric (d.fieldValue field)) :=
  (d.denotes_numeric (d.denotes_fieldValue field)).legible
    (plain_numeric d (plain_fieldValue d field))

/-- An expression compared with a value. -/
theorem spaced_compare {expr : String} (hexpr : Legible expr) (op : RangeOp) (v : Value) :
    Spaced (expr ++ " " ++ op.sql ++ " ?") [v] := by
  have hjoined := Spaced.behind (' ' :: op.sql.toList ++ [' ']) [] hexpr v
    (by cases op <;> decide) (by cases op <;> rfl) (by decide) (by decide)
    (by cases op <;> decide)
  rw [String.append_assoc, String.append_assoc]
  cases op <;> exact hjoined

/-- **The placeholders of a test stand between breaks.** -/
theorem Test.isSpaced_render (t : Test) : (t.render d).IsSpaced := by
  cases t with
  | equals field value =>
    exact .behind " = ".toList [] (legible_fieldText d field) value (by decide) rfl (by decide)
      (by decide) (by decide)
  | among field values =>
    have hlist := (spaced_placeholders values).enclosed " IN (".toList [')'] (by decide) rfl
      (by decide) (by decide)
    have hdetached : Detached (" IN (" ++ (placeholders values.length ++ ")")) :=
      (detached_ofList (by decide)).append fun h => absurd h (by decide)
    rw [String.append_assoc] at hlist
    have hjoined := Spaced.legible_append (legible_fieldText d field) hlist (.inr hdetached)
    rw [← String.append_assoc, ← String.append_assoc] at hjoined
    exact hjoined
  | like field pattern =>
    exact .behind " LIKE ".toList " ESCAPE '\\'".toList (legible_fieldText d field)
      (.text pattern) (by decide) rfl (by decide) (by decide) (by decide)
  | compareText field op value => exact spaced_compare (legible_fieldText d field) op value
  | compareNumber field op value => exact spaced_compare (legible_numeric d field) op value
  | present field =>
    have htail : Detached " IS NOT NULL" := detached_ofList (by decide)
    exact .text ((legible_fieldValue d field).append (legible_ofList (by decide)) (.inr htail))

mutual

/-- **The placeholders of a condition stand between breaks.** -/
theorem Condition.isSpaced_render : ∀ c : Condition, (c.render d).IsSpaced
  | .test t => by
    rw [Condition.render]
    exact t.isSpaced_render d
  | .never => by
    rw [Condition.render]
    exact .text (legible_ofList (by decide))
  | .all parts => by
    rw [Condition.render]
    exact Fragment.isSpaced_join " AND ".toList (by decide) rfl (by decide) (by decide)
      (isSpaced_renderList parts)
  | .any parts => by
    rw [Condition.render]
    exact Fragment.isSpaced_join " OR ".toList (by decide) rfl (by decide) (by decide)
      (isSpaced_renderList parts)
  | .group c => by
    rw [Condition.render]
    exact c.isSpaced_render.parenthesized
  | .not c => by
    rw [Condition.render]
    exact c.isSpaced_render.negated

theorem Condition.isSpaced_renderList : ∀ cs : List Condition,
    ∀ f ∈ Condition.renderList d cs, f.IsSpaced
  | [] => by
    intro f hf
    cases hf
  | c :: cs => by
    intro f hf
    rw [Condition.renderList] at hf
    rcases List.mem_cons.mp hf with rfl | hf
    · exact c.isSpaced_render
    · exact isSpaced_renderList cs f hf

end

theorem Condition.isSpaced_render? (c : Option Condition) :
    (Condition.render? d c).IsSpaced := by
  cases c with
  | none => exact Fragment.isSpaced_empty
  | some c => exact c.isSpaced_render d

end DocSearch
