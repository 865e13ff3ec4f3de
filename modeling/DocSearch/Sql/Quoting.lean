/-!
# Quoted text in SQL

A literal stands between single quotes and an identifier between double quotes;
the quote itself is written twice inside.  In a pattern of `LIKE` a backslash
takes the meaning of the character behind it away.

## Main definitions

* `quoteLiteral`, `quoteIdent` — a text as a literal or as an identifier.
* `escapeLike` — the pattern that matches a text and nothing else.
-/

namespace DocSearch.Sql

/-- `cs` with each `quote` written twice. -/
def doubled (quote : Char) : List Char → List Char
  | [] => []
  | c :: cs => if c = quote then quote :: quote :: doubled quote cs else c :: doubled quote cs

@[simp] theorem doubled_nil (quote : Char) : doubled quote [] = [] := rfl

@[simp] theorem doubled_cons_self (quote : Char) (cs : List Char) :
    doubled quote (quote :: cs) = quote :: quote :: doubled quote cs := by simp [doubled]

theorem doubled_cons_of_ne {quote c : Char} (h : c ≠ quote) (cs : List Char) :
    doubled quote (c :: cs) = c :: doubled quote cs := by simp [doubled, h]

/-- A text between two quotes, with the quotes inside written twice. -/
def enquote (quote : Char) (s : String) : String :=
  String.ofList (quote :: doubled quote s.toList ++ [quote])

/-- A text as a literal. -/
def quoteLiteral (s : String) : String := enquote '\x27' s

/-- A text as an identifier. -/
def quoteIdent (s : String) : String := enquote '"' s

/-- The characters with a meaning in a pattern of `LIKE`. -/
def isLikeSpecial (c : Char) : Bool := c == '\\' || c == '%' || c == '_'

/-- A text as a pattern that means just this text. -/
def escapeLikeChars (cs : List Char) : List Char :=
  cs.flatMap fun c => if isLikeSpecial c then ['\\', c] else [c]

/-- A text as a pattern that means just this text. -/
def escapeLike (s : String) : String := String.ofList (escapeLikeChars s.toList)

end DocSearch.Sql
