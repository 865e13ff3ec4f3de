import DocSearch.Text
import DocSearch.Sql.Value

/-!
# Fragments of statements

A fragment is a piece of a statement with one placeholder `?` for each value that
it binds.  Values never enter the text.  A question mark inside a literal is no
placeholder.

## Main definitions

* `Fragment` — text and values, with `append`, `join`, `parenthesized`, `negated`.
* `rewritePlaceholders` — replace the placeholders of a text by their number.
* `Fragment.inline` — the text with the values written in.
-/

namespace DocSearch.Sql

/-- A piece of a statement and the values its placeholders bind, in order. -/
structure Fragment where
  /-- The text. -/
  sql : String
  /-- The values. -/
  params : List Value
  deriving DecidableEq, Repr, Inhabited

/-- Replace the `n`-th placeholder, from one, by `render n`.  `quoted` says that
the text starts inside a literal, and `passed` how many placeholders precede it. -/
def rewritePlaceholders (render : Nat → List Char) : Bool → Nat → List Char → List Char
  | _, _, [] => []
  | quoted, passed, c :: cs =>
    if c = '\x27' then c :: rewritePlaceholders render (!quoted) passed cs
    else if c = '?' ∧ quoted = false then
      render (passed + 1) ++ rewritePlaceholders render quoted (passed + 1) cs
    else c :: rewritePlaceholders render quoted passed cs

namespace Fragment

/-- The fragment without text. -/
def empty : Fragment := ⟨"", []⟩

/-- A text that binds nothing. -/
def raw (sql : String) : Fragment := ⟨sql, []⟩

/-- A condition that no row meets. -/
def never : Fragment := raw "1 = 0"

/-- Whether there is no text. -/
def isEmpty (f : Fragment) : Bool := f.sql.isEmpty

/-- One fragment behind the other. -/
def append (f g : Fragment) : Fragment := ⟨f.sql ++ g.sql, f.params ++ g.params⟩

instance : Append Fragment := ⟨append⟩

@[simp] theorem sql_append (f g : Fragment) : (f ++ g).sql = f.sql ++ g.sql := rfl

@[simp] theorem params_append (f g : Fragment) : (f ++ g).params = f.params ++ g.params := rfl

/-- A fragment with more text behind it. -/
def push (f : Fragment) (sql : String) : Fragment := ⟨f.sql ++ sql, f.params⟩

/-- A fragment in parentheses. -/
def parenthesized (f : Fragment) : Fragment := ⟨"(" ++ f.sql ++ ")", f.params⟩

/-- The negation of a condition. -/
def negated (f : Fragment) : Fragment := ⟨"NOT (" ++ f.sql ++ ")", f.params⟩

/-- Fragments one after the other with `separator` between neighbours. -/
def chain (separator : String) : List Fragment → Fragment
  | [] => empty
  | [f] => f
  | f :: g :: rest => f.push separator ++ chain separator (g :: rest)

/-- The fragments that have a text, with `separator` between neighbours. -/
def join (separator : String) (parts : List Fragment) : Fragment :=
  chain separator (parts.filter (!·.isEmpty))

/-- The text with the values written into it; placeholders without a value stay. -/
def inline (f : Fragment) : String :=
  let render (n : Nat) : List Char :=
    match f.params[n - 1]? with
    | some v => v.literal.toList
    | none => ['?']
  String.ofList (rewritePlaceholders render false 0 f.sql.toList)

end Fragment

/-- `n` placeholders with commas between them. -/
def placeholders (n : Nat) : String := Text.joinWith ", " (List.replicate n "?")

end DocSearch.Sql
