import DocSearch.Sql.Quoting

/-!
# Patterns of `LIKE`

In a pattern a percent sign stands for any characters, an underscore for any one
character, and a backslash takes the meaning of the character behind it away.  A
pattern matches whole texts.  Which characters count as the same is a parameter.

## Main definitions

* `suffixes` — the ends of a text, the whole text first.
* `likeMatches` — whether a pattern matches a text.
-/

namespace DocSearch.Sql

/-- The ends of a text, the whole text first and the empty one last. -/
def suffixes : List Char → List (List Char)
  | [] => [[]]
  | c :: cs => (c :: cs) :: suffixes cs

theorem mem_suffixes {s t : List Char} : s ∈ suffixes t ↔ s <:+ t := by
  induction t with
  | nil => simp [suffixes]
  | cons c cs ih => simp [suffixes, ih, List.suffix_cons_iff]

/-- Whether a pattern matches a text, `same` saying which characters count as the
same.  A backslash with nothing behind it matches nothing. -/
def likeMatches (same : Char → Char → Bool) : List Char → List Char → Bool
  | [], text => text.isEmpty
  | '%' :: pattern, text => (suffixes text).any (likeMatches same pattern)
  | '_' :: pattern, text =>
    match text with
    | [] => false
    | _ :: rest => likeMatches same pattern rest
  | ['\\'], _ => false
  | '\\' :: c :: pattern, text =>
    match text with
    | [] => false
    | d :: rest => same c d && likeMatches same pattern rest
  | c :: pattern, text =>
    match text with
    | [] => false
    | d :: rest => same c d && likeMatches same pattern rest

end DocSearch.Sql
