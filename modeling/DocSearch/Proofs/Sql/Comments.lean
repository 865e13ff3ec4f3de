import DocSearch.Proofs.Sql.Token
import DocSearch.Sql.Dialect

/-!
# Comments in statements

Outside quotes, two hyphens start a comment that goes on to the end of the line, and a slash
with an asterisk starts one that goes on to an asterisk with a slash.  PostgreSQL counts
comments within such a comment and refuses one that is left open; SQLite does neither.  Each
comment counts as a blank, and the tokens are read from what is left.

A mark of a comment between quotes is text like any other, so no comment starts in a text in
quotes, whatever it holds.

## Main definitions

* `Region`, `withoutComments` — the characters of a text with its comments left out.
* `Dialect.tokens` — the tokens of a text.
* `IsCommentFree` — no comment starts in a text, or with its last character.

## Main results

* `isCommentFree_enquote` — **no comment starts in a text in quotes.**
* `IsCommentFree.tokens_eq` — what is left of a text without comments is the text.
-/

namespace DocSearch

namespace Dialect

/-- Whether comments may hold comments. -/
def nestsComments : Dialect → Bool
  | sqlite => false
  | postgres => true

/-- Whether a character ends a line, and a comment that goes on to its end. -/
def endsLine : Dialect → Char → Bool
  | sqlite, c => c == '\n'
  | postgres, c => c == '\n' || c == '\r'

end Dialect

namespace Sql

/-! ### Leaving comments out -/

/-- Where a character of a statement stands. -/
inductive Region where
  /-- In no quotes and no comment. -/
  | code
  /-- Between quotes. -/
  | quoted (q : Quote)
  /-- In a comment to the end of the line. -/
  | line
  /-- In a comment with an end of its own, within so many others. -/
  | block (depth : Nat)
  deriving DecidableEq, Repr

/-- Where the character behind one in no quotes and no comment stands. -/
def Region.behind (c : Char) : Region :=
  if c = Quote.single.char then .quoted .single
  else if c = Quote.double.char then .quoted .double
  else .code

/-- The characters of a text, each comment replaced by a blank; there are none if a comment is
left open that must not be. -/
def withoutComments (d : Dialect) : Region → List Char → Option (List Char)
  | .block _, [] => if d.nestsComments then none else some []
  | _, [] => some []
  | .code, '-' :: '-' :: cs => (withoutComments d .line cs).map (' ' :: ·)
  | .code, '/' :: '*' :: cs => (withoutComments d (.block 0) cs).map (' ' :: ·)
  | .code, c :: cs => (withoutComments d (.behind c) cs).map (c :: ·)
  | .quoted q, c :: cs =>
    (withoutComments d (if c = q.char then .code else .quoted q) cs).map (c :: ·)
  | .line, c :: cs => withoutComments d (if d.endsLine c then .code else .line) cs
  | .block _, [_] => if d.nestsComments then none else some []
  | .block depth, c :: next :: cs =>
    if c = '*' ∧ next = '/' then
      match depth with
      | 0 => withoutComments d .code cs
      | depth + 1 => withoutComments d (.block depth) cs
    else if d.nestsComments ∧ c = '/' ∧ next = '*' then withoutComments d (.block (depth + 1)) cs
    else withoutComments d (.block depth) (next :: cs)

end Sql

open Sql

/-- The tokens of a text; there are none if quotes or a comment are left open. -/
def Dialect.tokens (d : Dialect) (s : String) : Option (List Token) :=
  (withoutComments d .code s.toList).bind fun cs => tokenize (String.ofList cs)

namespace Sql

/-! ### Texts in which no comment starts -/

/-- No comment starts in a text, or with its last character, whatever follows. -/
def IsCommentFree (d : Dialect) (s : String) : Prop :=
  ∀ rest, withoutComments d .code (s.toList ++ rest) =
    (withoutComments d .code rest).map (s.toList ++ ·)

variable {d : Dialect} {s t : String}

theorem IsCommentFree.append (hs : IsCommentFree d s) (ht : IsCommentFree d t) :
    IsCommentFree d (s ++ t) := by
  intro rest
  rw [String.toList_append, List.append_assoc, hs, ht, Option.map_map]
  congr 1
  funext cs
  rw [Function.comp_apply, List.append_assoc]

/-- A text without comments is read by its own tokens. -/
theorem IsCommentFree.tokens_eq (hs : IsCommentFree d s) : d.tokens s = tokenize s := by
  have hkept := hs []
  have hend : withoutComments d .code [] = some [] := rfl
  rw [List.append_nil, hend, Option.map_some, List.append_nil] at hkept
  rw [Dialect.tokens, hkept, Option.bind_some, String.ofList_toList]

/-- Whether a text has no quote and no mark of a comment, also together with what follows. -/
def isUnmarked : List Char → Bool
  | [] => true
  | c :: cs =>
    Region.behind c == .code && !(c == '-' && cs.head?.all (· == '-')) &&
      !(c == '/' && cs.head?.all (· == '*')) && isUnmarked cs

/-- No comment starts in a text without quotes and marks of comments. -/
theorem isCommentFree_of_isUnmarked (d : Dialect) (h : isUnmarked s.toList = true) :
    IsCommentFree d s := by
  intro rest
  generalize s.toList = cs at h
  induction cs with
  | nil => simp
  | cons c cs ih =>
    simp only [isUnmarked, Bool.and_eq_true, Bool.not_eq_true', beq_iff_eq,
      Bool.and_eq_false_imp] at h
    obtain ⟨⟨⟨hcode, hline⟩, hblock⟩, hcs⟩ := h
    have hline' : ∀ more, c = '-' → cs ++ rest ≠ '-' :: more := by
      rintro more hc hmore
      cases cs with
      | nil => simpa using hline hc
      | cons next cs => simp_all
    have hblock' : ∀ more, c = '/' → cs ++ rest ≠ '*' :: more := by
      rintro more hc hmore
      cases cs with
      | nil => simpa using hblock hc
      | cons next cs => simp_all
    rw [List.cons_append, withoutComments, hcode, ih hcs, Option.map_map]
    · rfl
    · exact hline'
    · exact hblock'

/-- A quote starts no comment. -/
theorem withoutComments_quote (d : Dialect) (q : Quote) (cs : List Char) :
    withoutComments d .code (q.char :: cs) =
      (withoutComments d (.quoted q) cs).map (q.char :: ·) := by
  cases q <;> rfl

/-- A text in quotes goes on to the quote that is not written twice. -/
theorem withoutComments_doubled (d : Dialect) (q : Quote) (cs rest : List Char) :
    withoutComments d (.quoted q) (doubled q.char cs ++ q.char :: rest) =
      (withoutComments d .code rest).map (doubled q.char cs ++ q.char :: ·) := by
  have hend : ∀ cs, withoutComments d (.quoted q) (q.char :: cs) =
      (withoutComments d .code cs).map (q.char :: ·) := by
    intro cs
    rw [withoutComments, if_pos rfl]
  induction cs with
  | nil => exact hend rest
  | cons c cs ih =>
    by_cases hc : c = q.char
    · -- the first of two quotes ends the text, and the second one starts it again
      subst hc
      rw [doubled_cons_self, List.cons_append, List.cons_append, hend, withoutComments_quote, ih,
        Option.map_map, Option.map_map]
      rfl
    · rw [doubled_cons_of_ne hc, List.cons_append, withoutComments, if_neg hc, ih, Option.map_map]
      rfl

/-- **No comment starts in a text in quotes**, whatever it holds. -/
theorem isCommentFree_enquote (d : Dialect) (q : Quote) (s : String) :
    IsCommentFree d (enquote q.char s) := by
  intro rest
  have htext : (enquote q.char s).toList = q.char :: (doubled q.char s.toList ++ [q.char]) := by
    rw [enquote, String.toList_ofList, List.cons_append]
  rw [htext, List.cons_append, List.append_assoc, List.singleton_append, withoutComments_quote,
    withoutComments_doubled, Option.map_map]
  congr 1
  funext cs
  simp

/-- Behind two hyphens a quote means nothing; between quotes the hyphens do not. -/
example : Dialect.sqlite.tokens "doc -- '" = some [.word "doc"] ∧
    Dialect.sqlite.tokens "doc '--'" = some [.word "doc", .literal "--"] := by decide +kernel

end Sql

end DocSearch
