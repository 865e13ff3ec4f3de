import DocSearch.Sql.Like
import Mathlib.Data.List.Forall2
import Mathlib.Data.List.Infix

/-!
# What patterns of `LIKE` match

A pattern is matched from left to right: a percent sign by any characters, an underscore by
one character, and what stands for itself by a character that counts as the same.  A text
whose special characters are escaped stands for itself as a whole, whatever comes next to it.

Which characters count as the same is not said here, so that texts are compared character by
character.

## Main definitions

* `Like` — a pattern matches a text, by one rule for each part of a pattern.
* `SameText`, `Starts`, `Occurs` — a text is the same as another one, as its start, as a part
  of it.

## Main results

* `likeMatches_iff` — **matching is decided by trying all ways**.
* `like_escape_append` — **an escaped text is matched by the same text**, and the rest of the
  pattern by the rest of the text.
* `likeMatches_escape`, `likeMatches_escape_any`, `likeMatches_any_escape_any` — a text on its
  own, with anything behind it, and with anything on both sides.
-/

namespace DocSearch.Sql

variable {same : Char → Char → Bool}

/-! ### Matching by rules -/

/-- A pattern matches a text. -/
inductive Like (same : Char → Char → Bool) : List Char → List Char → Prop where
  /-- Nothing matches nothing. -/
  | nil : Like same [] []
  /-- A percent sign matches any characters. -/
  | anything (skipped : List Char) {pattern text : List Char} (h : Like same pattern text) :
    Like same ('%' :: pattern) (skipped ++ text)
  /-- An underscore matches any one character. -/
  | anyCharacter (c : Char) {pattern text : List Char} (h : Like same pattern text) :
    Like same ('_' :: pattern) (c :: text)
  /-- Behind a backslash, every character stands for itself. -/
  | escaped {c d : Char} (hsame : same c d) {pattern text : List Char}
    (h : Like same pattern text) : Like same ('\\' :: c :: pattern) (d :: text)
  /-- A character without a meaning stands for itself. -/
  | plain {c d : Char} (hc : isLikeSpecial c = false) (hsame : same c d)
    {pattern text : List Char} (h : Like same pattern text) :
    Like same (c :: pattern) (d :: text)

theorem like_nil_iff {t : List Char} : Like same [] t ↔ t = [] := by
  constructor
  · intro h
    cases h
    rfl
  · rintro rfl
    exact .nil

theorem like_anything_iff {p t : List Char} :
    Like same ('%' :: p) t ↔ ∃ u v, t = u ++ v ∧ Like same p v := by
  constructor
  · intro h
    cases h with
    | anything skipped h => exact ⟨skipped, _, rfl, h⟩
    | plain hc => exact absurd hc (by decide)
  · rintro ⟨u, v, rfl, h⟩
    exact .anything u h

theorem like_anyCharacter_iff {p t : List Char} :
    Like same ('_' :: p) t ↔ ∃ c v, t = c :: v ∧ Like same p v := by
  constructor
  · intro h
    cases h with
    | anyCharacter c h => exact ⟨c, _, rfl, h⟩
    | plain hc => exact absurd hc (by decide)
  · rintro ⟨c, v, rfl, h⟩
    exact .anyCharacter c h

theorem like_escaped_iff {c : Char} {p t : List Char} :
    Like same ('\\' :: c :: p) t ↔ ∃ d v, t = d :: v ∧ same c d ∧ Like same p v := by
  constructor
  · intro h
    cases h with
    | escaped hsame h => exact ⟨_, _, rfl, hsame, h⟩
    | plain hc => exact absurd hc (by decide)
  · rintro ⟨d, v, rfl, hsame, h⟩
    exact .escaped hsame h

theorem like_plain_iff {c : Char} (hc : isLikeSpecial c = false) {p t : List Char} :
    Like same (c :: p) t ↔ ∃ d v, t = d :: v ∧ same c d ∧ Like same p v := by
  constructor
  · intro h
    cases h with
    | plain _ hsame h => exact ⟨_, _, rfl, hsame, h⟩
    | _ => exact absurd hc (by decide)
  · rintro ⟨d, v, rfl, hsame, h⟩
    exact .plain hc hsame h

/-- A character that starts no other part of a pattern stands for itself. -/
theorem isLikeSpecial_eq_false {c : Char} {p : List Char} (hpercent : c ≠ '%')
    (hunderscore : c ≠ '_') (hlast : c = '\\' → p ≠ []) (hescape : ∀ d q, c = '\\' → p ≠ d :: q) :
    isLikeSpecial c = false := by
  have hbackslash : c ≠ '\\' := by
    cases p with
    | nil => exact fun h => hlast h rfl
    | cons d q => exact fun h => hescape d q h rfl
  simp [isLikeSpecial, hpercent, hunderscore, hbackslash]

/-- **Matching is decided by trying all ways.** -/
theorem likeMatches_iff (p t : List Char) : likeMatches same p t = true ↔ Like same p t := by
  -- a percent sign asks for the rest of the pattern at every place of the text
  induction hlength : p.length using Nat.strong_induction_on generalizing p t with
  | _ n hshorter =>
  have ih : ∀ q : List Char, q.length < p.length → ∀ t,
      (likeMatches same q t = true ↔ Like same q t) :=
    fun q hq t => hshorter q.length (hlength ▸ hq) q t rfl
  fun_cases likeMatches same p t with
  | case1 t => rw [List.isEmpty_iff, like_nil_iff]
  | case2 p =>
    have hp := ih p (by simp)
    simp only [List.any_eq_true, mem_suffixes, hp, like_anything_iff]
    exact ⟨fun ⟨v, ⟨u, huv⟩, hv⟩ => ⟨u, v, huv.symm, hv⟩,
      fun ⟨u, v, huv, hv⟩ => ⟨v, ⟨u, huv.symm⟩, hv⟩⟩
  | case3 p => simp [like_anyCharacter_iff]
  | case4 p c t => simp [ih p (by simp), like_anyCharacter_iff]
  | case5 t =>
    have hnone : ¬ Like same ['\\'] t := by
      intro h
      cases h with
      | plain hc => exact absurd hc (by decide)
    simp [hnone]
  | case6 c p => simp [like_escaped_iff]
  | case7 c p d t =>
    have hshort : p.length < ('\\' :: c :: p).length := by
      rw [List.length_cons, List.length_cons]
      omega
    simp [ih p hshort, like_escaped_iff]
  | case8 c p hpercent hunderscore hlast hescape =>
    have hc := isLikeSpecial_eq_false hpercent hunderscore hlast hescape
    simp [like_plain_iff hc]
  | case9 c p hpercent hunderscore hlast hescape d t =>
    have hc := isLikeSpecial_eq_false hpercent hunderscore hlast hescape
    simp [ih p (by simp), like_plain_iff hc]

/-! ### Escaped texts -/

/-- A text is the same as another one, character by character. -/
def SameText (same : Char → Char → Bool) (s t : List Char) : Prop :=
  List.Forall₂ (fun c d => same c d = true) s t

/-- A text is the start of another one. -/
def Starts (same : Char → Char → Bool) (s t : List Char) : Prop :=
  ∃ u, u <+: t ∧ SameText same s u

/-- A text is a part of another one. -/
def Occurs (same : Char → Char → Bool) (s t : List Char) : Prop :=
  ∃ u, u <:+: t ∧ SameText same s u

/-- **An escaped text is matched by the same text, and what comes next by the rest.** -/
theorem like_escape_append {s p t : List Char} :
    Like same (escapeLikeChars s ++ p) t ↔
      ∃ u v, t = u ++ v ∧ SameText same s u ∧ Like same p v := by
  induction s generalizing t with
  | nil => simp [escapeLikeChars, SameText]
  | cons c s ih =>
    have hstep : Like same (escapeLikeChars (c :: s) ++ p) t ↔
        ∃ d v, t = d :: v ∧ same c d ∧ Like same (escapeLikeChars s ++ p) v := by
      rw [escapeLikeChars, List.flatMap_cons, ← escapeLikeChars]
      cases hc : isLikeSpecial c with
      | true => exact like_escaped_iff
      | false => exact like_plain_iff hc
    simp only [hstep, ih, SameText, List.forall₂_cons_left_iff]
    constructor
    · rintro ⟨d, _, rfl, hsame, u, v, rfl, hu, hv⟩
      exact ⟨d :: u, v, rfl, ⟨d, u, hsame, hu, rfl⟩, hv⟩
    · rintro ⟨_, v, rfl, ⟨d, u, hsame, hu, rfl⟩, hv⟩
      exact ⟨d, u ++ v, rfl, hsame, u, v, rfl, hu, hv⟩

/-- A percent sign at the end matches the rest, whatever it is. -/
theorem like_anything_end (t : List Char) : Like same ['%'] t := by
  have h : Like same ['%'] (t ++ []) := .anything t .nil
  rwa [List.append_nil] at h

/-- **An escaped text matches the same text only.** -/
theorem likeMatches_escape (s t : List Char) :
    likeMatches same (escapeLikeChars s) t = true ↔ SameText same s t := by
  rw [likeMatches_iff, ← List.append_nil (escapeLikeChars s), like_escape_append]
  constructor
  · rintro ⟨u, v, rfl, hu, hv⟩
    rwa [like_nil_iff.mp hv, List.append_nil]
  · intro h
    exact ⟨t, [], (List.append_nil t).symm, h, .nil⟩

/-- **With a percent sign behind it, it matches what it starts.** -/
theorem likeMatches_escape_any (s t : List Char) :
    likeMatches same (escapeLikeChars s ++ ['%']) t = true ↔ Starts same s t := by
  rw [likeMatches_iff, like_escape_append]
  constructor
  · rintro ⟨u, v, rfl, hu, -⟩
    exact ⟨u, List.prefix_append u v, hu⟩
  · rintro ⟨u, ⟨v, rfl⟩, hu⟩
    exact ⟨u, v, rfl, hu, like_anything_end v⟩

/-- **With percent signs on both sides, it matches what it occurs in.** -/
theorem likeMatches_any_escape_any (s t : List Char) :
    likeMatches same ('%' :: (escapeLikeChars s ++ ['%'])) t = true ↔ Occurs same s t := by
  rw [likeMatches_iff, like_anything_iff]
  simp only [like_escape_append]
  constructor
  · rintro ⟨before, _, rfl, u, after, rfl, hu, -⟩
    exact ⟨u, ⟨before, after, by rw [List.append_assoc]⟩, hu⟩
  · rintro ⟨u, ⟨before, after, rfl⟩, hu⟩
    exact ⟨before, u ++ after, by rw [List.append_assoc], u, after, rfl, hu,
      like_anything_end after⟩

end DocSearch.Sql
