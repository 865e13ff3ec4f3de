import DocSearch.Aggregation.Basic
import DocSearch.Engine.Error
import DocSearch.Store.Cell

/-!
# Functions of many cells

The functions of a metric look at the cells of a column and pass over the empty
ones.  Integers are summed exactly as long as the sum fits into 64 bits.  From the
first double on, or when the sum does not fit any more, the sum is a double with a
second double for what rounding has lost.

## Main definitions

* `FloatSum` — a sum of doubles with its lost part.
* `RunningSum` — a sum that is exact as long as it can be.
* `Metric.summarize` — the result of a metric over cells.
-/

namespace DocSearch

/-! ### Sums of doubles -/

/-- A sum of doubles and what rounding has lost of it. -/
structure FloatSum where
  /-- The sum. -/
  sum : Float
  /-- What is missing. -/
  lost : Float
  deriving Repr

/-- From this magnitude on, integers are added in two parts. -/
def wideInteger : Int := 4503599627370496

/-- The lower part of an integer that is added in two parts. -/
def lowerPart (n : Int) : Int := Int.tmod n 16384

namespace FloatSum

/-- Add a double; what is lost is found from the operand of smaller magnitude. -/
def add (s : FloatSum) (x : Float) : FloatSum :=
  let total := s.sum + x
  let lost := if x.abs < s.sum.abs then (s.sum - total) + x else (x - total) + s.sum
  ⟨total, s.lost + lost⟩

/-- Add an integer. -/
def addInt (s : FloatSum) (n : Int) : FloatSum :=
  if n.natAbs < wideInteger.natAbs then s.add (Float.ofInt n)
  else (s.add (Float.ofInt (n - lowerPart n))).add (Float.ofInt (lowerPart n))

/-- A sum of which nothing is lost yet. -/
def ofInt (n : Int) : FloatSum :=
  if n.natAbs < wideInteger.natAbs then ⟨Float.ofInt n, 0.0⟩
  else ⟨Float.ofInt (n - lowerPart n), Float.ofInt (lowerPart n)⟩

/-- The value of a sum; a lost part that is not finite is disregarded. -/
def value (s : FloatSum) : Float := if s.lost.isFinite then s.sum + s.lost else s.sum

end FloatSum

/-! ### Running sums -/

/-- A sum of integers and doubles. -/
inductive RunningSum where
  /-- The sum of integers only. -/
  | exact (n : Int)
  /-- Any other sum, and whether the integers overflowed with no double since. -/
  | rounded (s : FloatSum) (overflowed : Bool)
  deriving Repr

namespace RunningSum

/-- Add an integer. -/
def addInt : RunningSum → Int → RunningSum
  | exact m, n =>
    match int64? (m + n) with
    | some _ => exact (m + n)
    | none => rounded ((FloatSum.ofInt m).addInt n) true
  | rounded s overflowed, n => rounded (s.addInt n) overflowed

/-- Add a double. -/
def addReal : RunningSum → Float → RunningSum
  | exact m, x => rounded ((FloatSum.ofInt m).add x) false
  | rounded s _, x => rounded (s.add x) false

/-- Add what a cell holds; only numbers are ever summed. -/
def addCell (s : RunningSum) : Cell → RunningSum
  | .integer n => s.addInt n.toInt
  | .real x => s.addReal x
  | _ => s

/-- The sum of cells. -/
def ofCells (cells : List Cell) : RunningSum := cells.foldl addCell (exact 0)

/-- The sum as a double. -/
def toFloat : RunningSum → Float
  | exact n => Float.ofInt n
  | rounded s _ => s.value

/-- The sum as a cell; integers that do not fit are an error. -/
def toCell : RunningSum → Except EvaluationError Cell
  | exact n => .ok (.integer (Int64.ofInt n))
  | rounded _ true => .error .integerOverflow
  | rounded s false => .ok (if s.value.isNaN then .null else .real s.value)

end RunningSum

/-! ### Metrics -/

/-- The first of the cells that no other cell comes before in an order. -/
def firstExtreme (before : Cell → Cell → Bool) : List Cell → Cell
  | [] => .null
  | c :: cs => cs.foldl (fun best d => if before d best then d else best) c

/-- The mean of cells. -/
def meanOf (cells : List Cell) : Cell :=
  let mean := (RunningSum.ofCells cells).toFloat / cells.length.toFloat
  if mean.isNaN then .null else .real mean

/-- The result of a metric over cells.  Over no cells there is none, but their number
is zero. -/
def Metric.summarize (m : Metric) (cells : List Cell) : Except EvaluationError Cell :=
  let cells := cells.filter (· != .null)
  match m with
  | .valueCount => .ok (.integer (Int64.ofNat cells.length))
  | .sum => if cells.isEmpty then .ok .null else (RunningSum.ofCells cells).toCell
  | .avg => .ok (if cells.isEmpty then .null else meanOf cells)
  | .min => .ok (firstExtreme (fun d best => d.order best == .lt) cells)
  | .max => .ok (firstExtreme (fun d best => d.order best == .gt) cells)

end DocSearch
