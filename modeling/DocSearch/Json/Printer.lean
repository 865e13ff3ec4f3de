import DocSearch.Json.Basic
import DocSearch.Decimal.Layout

/-!
# The text of a JSON value

A value is written on one line without blanks, or indented by two blanks a level.
In strings only the quote, the backslash and the characters below the blank are
escaped; doubles are written in the real layout.

## Main definitions

* `Json.print` — the compact text.
* `Json.pretty` — the indented text.
-/

namespace DocSearch

/-- The hexadecimal digit of a number below sixteen, in lower case. -/
def hexDigit (n : Nat) : Char :=
  if n < 10 then Char.ofNat ('0'.toNat + n) else Char.ofNat ('a'.toNat + n - 10)

namespace Number

/-- The text of a number. -/
def print : Number → String
  | .int n => toString n
  | .real x => realText x

end Number

namespace Json

/-- The characters that stand for `c` inside a quoted string. -/
def escapeChar (c : Char) : List Char :=
  if c = '"' then ['\\', '"']
  else if c = '\\' then ['\\', '\\']
  else if c = '\x08' then ['\\', 'b']
  else if c = '\t' then ['\\', 't']
  else if c = '\n' then ['\\', 'n']
  else if c = '\x0c' then ['\\', 'f']
  else if c = '\r' then ['\\', 'r']
  else if c.toNat < 0x20 then
    ['\\', 'u', '0', '0', hexDigit (c.toNat / 16), hexDigit (c.toNat % 16)]
  else [c]

/-- A quoted string. -/
def quoted (s : String) : String :=
  String.ofList ('"' :: s.toList.flatMap escapeChar ++ ['"'])

mutual

/-- The compact text of a value. -/
def print : Json → String
  | .null => "null"
  | .bool b => if b then "true" else "false"
  | .num n => n.print
  | .str s => quoted s
  | .arr items => "[" ++ printItems items ++ "]"
  | .obj members => "\x7b" ++ printMembers members ++ "\x7d"

/-- The texts of the items, with commas between them. -/
def printItems : List Json → String
  | [] => ""
  | [v] => print v
  | v :: w :: rest => print v ++ "," ++ printItems (w :: rest)

/-- The members with their names, with commas between them. -/
def printMembers : List (String × Json) → String
  | [] => ""
  | [(k, v)] => quoted k ++ ":" ++ print v
  | (k, v) :: m :: rest => quoted k ++ ":" ++ print v ++ "," ++ printMembers (m :: rest)

end

/-- A line break and two blanks for each level. -/
private def lineBreak (level : Nat) : String :=
  String.ofList ('\n' :: List.replicate (2 * level) ' ')

mutual

/-- The text of a value that stands `level` levels deep. -/
private def prettyAt (level : Nat) : Json → String
  | .arr [] => "[]"
  | .arr (v :: rest) => "[" ++ prettyItems level (v :: rest) ++ lineBreak level ++ "]"
  | .obj [] => "\x7b\x7d"
  | .obj (m :: rest) => "\x7b" ++ prettyMembers level (m :: rest) ++ lineBreak level ++ "\x7d"
  | .null => "null"
  | .bool b => if b then "true" else "false"
  | .num n => n.print
  | .str s => quoted s

/-- The items on lines of their own. -/
private def prettyItems (level : Nat) : List Json → String
  | [] => ""
  | [v] => lineBreak (level + 1) ++ prettyAt (level + 1) v
  | v :: w :: rest =>
    lineBreak (level + 1) ++ prettyAt (level + 1) v ++ "," ++ prettyItems level (w :: rest)

/-- The members on lines of their own. -/
private def prettyMembers (level : Nat) : List (String × Json) → String
  | [] => ""
  | [(k, v)] => lineBreak (level + 1) ++ quoted k ++ ": " ++ prettyAt (level + 1) v
  | (k, v) :: m :: rest =>
    lineBreak (level + 1) ++ quoted k ++ ": " ++ prettyAt (level + 1) v ++ ","
      ++ prettyMembers level (m :: rest)

end

/-- The text of a value, indented by two blanks a level. -/
def pretty (v : Json) : String := prettyAt 0 v

end Json

end DocSearch
