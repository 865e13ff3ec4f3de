import DocSearch.Json.Printer
import DocSearch.Decimal.Integral
import DocSearch.Decimal.Numeral
import DocSearch.Sql.Quoting

/-!
# Values in statements

A value is bound to a placeholder of a statement or read from a row of its
answer.

## Main definitions

* `Value` — the five kinds.
* `Value.toJson` — the value in an answer.
* `Value.toInt64?` — the value as an integer, cut off towards zero and clamped.
* `Value.literal` — the value written into a statement, for people to read.
-/

namespace DocSearch.Sql

/-- A value of a statement or of a row. -/
inductive Value where
  /-- No value. -/
  | null
  /-- A truth value. -/
  | bool (b : Bool)
  /-- A 64-bit integer. -/
  | integer (n : Int64)
  /-- A double. -/
  | real (x : Float)
  /-- A text. -/
  | text (s : String)
  deriving DecidableEq, Repr, Inhabited

namespace Value

/-- The value in an answer; a double that is not finite becomes `null`. -/
def toJson : Value → Json
  | null => .null
  | bool b => .bool b
  | integer n => .ofInt n.toInt
  | real x => if x.isFinite then .num (.real x) else .null
  | text s => .str s

/-- The value as an integer: a double is cut off towards zero and clamped, a text
is read, and a truth value is one or zero. -/
def toInt64? : Value → Option Int64
  | null => none
  | bool b => some (if b then 1 else 0)
  | integer n => some n
  | real x => some (truncateFloat x)
  | text s => readInt64 s

/-- The value as it is written into a statement. -/
def literal : Value → String
  | null => "NULL"
  | bool b => if b then "TRUE" else "FALSE"
  | integer n => toString n.toInt
  | real x => plainText x
  | text s => quoteLiteral s

/-- A scalar of a document as the text it is compared by; `null` has none. -/
def ofJson : Json → Value
  | .null => .null
  | .str s => .text s
  | v => .text v.print

end Value

end DocSearch.Sql
