import DocSearch.Json.Printer
import DocSearch.Json.Reader

/-!
# Quoted strings are read back

What is written between quotes is read back as it was, and the reader stops at the closing
quote.  So a text starts with one quoted string at most.

## Main results

* `readQuoted_escaped` — an escaped text is read back, up to the closing quote.
* `Json.quoted_append_inj` — two texts that start with quoted strings start with the same.
-/

namespace DocSearch

/-! ### Escaped characters -/

theorem hexQuad?_hexDigit {n : Nat} (hn : n < 0x20) :
    hexQuad? '0' '0' (hexDigit (n / 16)) (hexDigit (n % 16)) = some n := by
  have hall : ∀ k : Fin 0x20,
      hexQuad? '0' '0' (hexDigit (k / 16)) (hexDigit (k % 16)) = some k.val := by decide
  exact hall ⟨n, hn⟩

/-- A character that stands for itself between quotes. -/
theorem readQuoted_cons {c : Char} (hquote : c ≠ '"') (hslash : c ≠ '\\') (hlow : ¬ c.toNat < 0x20)
    (rest : List Char) : readQuoted (c :: rest) = (readQuoted rest).map fun p => (c :: p.1, p.2) := by
  rw [readQuoted.eq_def]
  split
  case h_5 c' rest' _ _ heq =>
    obtain ⟨rfl, rfl⟩ := List.cons.inj heq
    have hplain : ¬ (decide (c = '\\') || decide (c.toNat < 0x20)) = true := by
      rw [Bool.or_eq_true, decide_eq_true_iff, decide_eq_true_iff]
      exact fun h => h.elim hslash hlow
    rw [if_neg hplain, Option.map_eq_bind]
    rfl
  all_goals simp_all

/-- A character that is escaped by one letter. -/
theorem readQuoted_simpleEscape {letter c : Char} (hletter : letter ≠ 'u')
    (h : simpleEscape? letter = some c) (rest : List Char) :
    readQuoted ('\\' :: letter :: rest) = (readQuoted rest).map fun p => (c :: p.1, p.2) := by
  rw [readQuoted.eq_def]
  split
  case h_4 heq =>
    obtain ⟨rfl, rfl⟩ := List.cons.inj (List.cons.inj heq).2
    rw [h, Option.map_eq_bind]
    rfl
  case h_5 hother heq =>
    obtain ⟨rfl, rfl⟩ := List.cons.inj heq
    exact absurd rfl (hother letter rest rfl)
  all_goals simp_all

/-- **An escaped character is read back**, whatever follows. -/
theorem readQuoted_escapeChar (c : Char) (rest : List Char) :
    readQuoted (Json.escapeChar c ++ rest) = (readQuoted rest).map fun p => (c :: p.1, p.2) := by
  unfold Json.escapeChar
  split
  · subst_vars; exact readQuoted_simpleEscape (by decide) (by decide) rest
  split
  · subst_vars; exact readQuoted_simpleEscape (by decide) (by decide) rest
  split
  · subst_vars; exact readQuoted_simpleEscape (by decide) (by decide) rest
  split
  · subst_vars; exact readQuoted_simpleEscape (by decide) (by decide) rest
  split
  · subst_vars; exact readQuoted_simpleEscape (by decide) (by decide) rest
  split
  · subst_vars; exact readQuoted_simpleEscape (by decide) (by decide) rest
  split
  · subst_vars; exact readQuoted_simpleEscape (by decide) (by decide) rest
  split
  case isTrue hlow =>
    -- numbers below thirty-two are no surrogates
    have hhigh : isHighSurrogate c.toNat = false := by simp [isHighSurrogate]; omega
    have hlow' : isLowSurrogate c.toNat = false := by simp [isLowSurrogate]; omega
    simp only [List.cons_append, List.nil_append, readQuoted, hexQuad?_hexDigit hlow, hhigh, hlow',
      Char.ofNat_toNat, Bool.false_eq_true, if_false]
    rw [Option.map_eq_bind]
    rfl
  case isFalse hquote hslash _ _ _ _ _ hlow => exact readQuoted_cons hquote hslash hlow rest

/-- **An escaped text is read back**, up to the closing quote. -/
theorem readQuoted_escaped (cs rest : List Char) :
    readQuoted (cs.flatMap Json.escapeChar ++ '"' :: rest) = some (cs, rest) := by
  induction cs with
  | nil => simp [readQuoted]
  | cons c cs ih =>
    rw [List.flatMap_cons, List.append_assoc, readQuoted_escapeChar, ih]
    rfl

/-! ### Quoted strings -/

namespace Json

/-- **A text starts with one quoted string at most.** -/
theorem quoted_append_inj {s t : String} {x y : List Char}
    (h : (quoted s).toList ++ x = (quoted t).toList ++ y) : s = t ∧ x = y := by
  have hquoted : ∀ (s : String) (x : List Char),
      (quoted s).toList ++ x = '"' :: (s.toList.flatMap escapeChar ++ '"' :: x) := by
    intro s x
    simp [quoted]
  rw [hquoted, hquoted, List.cons.injEq] at h
  have hread := congrArg readQuoted h.2
  rw [readQuoted_escaped, readQuoted_escaped] at hread
  obtain ⟨hs, hx⟩ := Prod.mk.inj (Option.some.inj hread)
  exact ⟨String.toList_inj.mp hs, hx⟩

end Json

end DocSearch
