import DocSearch.Decimal.Shortest
import DocSearch.Sql.Value

/-!
# Cells

What a column of a row holds.  Truth values are held as one and zero, and no cell
holds a number that is not a number.

Cells are ordered: first the empty ones, then the numbers by their exact value,
then the texts by their code points, which is also the order of their UTF-8 bytes.

## Main definitions

* `Cell` — the four kinds, `Cell.ofValue` and `Cell.toValue`.
* `Cell.order` — the order of cells.
* `Cell.compare?` — the order of two cells neither of which is empty.
-/

namespace DocSearch

open Sql

/-- What a column of a row holds. -/
inductive Cell where
  /-- Nothing. -/
  | null
  /-- A 64-bit integer. -/
  | integer (n : Int64)
  /-- A double. -/
  | real (x : Float)
  /-- A text. -/
  | text (s : String)
  deriving DecidableEq, Repr, Inhabited

/-- The order of an integer and a finite double, by exact value. -/
def compareIntReal (n : Int) (x : Float) : Ordering :=
  let b := Binary.ofFloat x
  let m : Int := if x < 0.0 then -(b.mantissa : Int) else b.mantissa
  if 0 ≤ b.exponent then compare n (m * Int.pow 2 b.exponent.toNat)
  else compare (n * Int.pow 2 (-b.exponent).toNat) m

/-- The order of an integer and a double that is a number. -/
def compareIntFloat (n : Int) (x : Float) : Ordering :=
  if x.isInf then (if 0.0 < x then .lt else .gt) else compareIntReal n x

/-- The order of two doubles that are numbers. -/
def compareFloats (x y : Float) : Ordering :=
  if x < y then .lt else if y < x then .gt else .eq

/-- The order of two texts, by their code points. -/
def compareTexts (s t : String) : Ordering :=
  if s < t then .lt else if t < s then .gt else .eq

namespace Cell

/-- A value as it is held. -/
def ofValue : Value → Cell
  | .null => null
  | .bool b => integer (if b then 1 else 0)
  | .integer n => integer n
  | .real x => if x.isNaN then null else real x
  | .text s => text s

/-- A cell as a value. -/
def toValue : Cell → Value
  | null => .null
  | integer n => .integer n
  | real x => .real x
  | text s => .text s

@[simp] theorem toValue_null : null.toValue = .null := rfl

@[simp] theorem toValue_integer (n : Int64) : (integer n).toValue = .integer n := rfl

@[simp] theorem toValue_text (s : String) : (text s).toValue = .text s := rfl

@[simp] theorem ofValue_text (s : String) : ofValue (.text s) = text s := rfl

/-- The order of cells. -/
def order : Cell → Cell → Ordering
  | null, null => .eq
  | null, _ => .lt
  | _, null => .gt
  | integer n, integer m => compare n.toInt m.toInt
  | integer n, real x => compareIntFloat n.toInt x
  | real x, integer n => (compareIntFloat n.toInt x).swap
  | real x, real y => compareFloats x y
  | text s, text t => compareTexts s t
  | text _, _ => .gt
  | _, text _ => .lt

/-- The order of two cells; a comparison with an empty cell has no result. -/
def compare? : Cell → Cell → Option Ordering
  | null, _ => none
  | _, null => none
  | a, b => some (order a b)

end Cell

end DocSearch
