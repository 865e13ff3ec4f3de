import DocSearch.Time.Calendar

/-!
# Calendar intervals

An instant is truncated to the start of the second, minute, hour, day, week,
month, quarter or year that it lies in.  Weeks start on Monday, quarters in
January, April, July and October.

## Main definitions

* `Interval` — the units, `Interval.unit` and `Interval.ofName?`.
* `Interval.start` — the start of the period of an instant.
* `Interval.floor?` — the same inside the supported range.
-/

namespace DocSearch

/-- A unit of the calendar. -/
inductive Interval where
  /-- Calendar years. -/
  | year
  /-- Quarters of a year. -/
  | quarter
  /-- Calendar months. -/
  | month
  /-- Weeks that start on Monday. -/
  | week
  /-- Days. -/
  | day
  /-- Hours. -/
  | hour
  /-- Minutes. -/
  | minute
  /-- Seconds. -/
  | second
  deriving DecidableEq, Repr

namespace Interval

/-- The name of a unit. -/
def unit : Interval → String
  | year => "year"
  | quarter => "quarter"
  | month => "month"
  | week => "week"
  | day => "day"
  | hour => "hour"
  | minute => "minute"
  | second => "second"

/-- The unit with a given name or shorthand; the case of letters counts. -/
def ofName? (name : String) : Option Interval :=
  if name = "year" ∨ name = "1y" then some year
  else if name = "quarter" ∨ name = "1q" then some quarter
  else if name = "month" ∨ name = "1M" then some month
  else if name = "week" ∨ name = "1w" then some week
  else if name = "day" ∨ name = "1d" then some day
  else if name = "hour" ∨ name = "1h" then some hour
  else if name = "minute" ∨ name = "1m" then some minute
  else if name = "second" ∨ name = "1s" then some second
  else none

@[simp] theorem ofName?_unit (i : Interval) : ofName? i.unit = some i := by
  cases i <;> decide +kernel

/-- The start of the period in which `millis` lies. -/
def start (i : Interval) (millis : Int) : Int :=
  let n := Instant.day millis
  let date := Date.ofDay n
  let midnight (day : Int) : Int := day * Instant.dayLength
  match i with
  | second => millis / 1000 * 1000
  | minute => millis / 60000 * 60000
  | hour => millis / 3600000 * 3600000
  | day => midnight n
  | week => midnight (n - (n + 3) % 7)
  | month => midnight (Date.toDay ⟨date.year, date.month, 1⟩)
  | quarter => midnight (Date.toDay ⟨date.year, (date.month - 1) / 3 * 3 + 1, 1⟩)
  | year => midnight (Date.toDay ⟨date.year, 1, 1⟩)

/-- The start of the period of a supported instant, where that is supported too. -/
def floor? (i : Interval) (millis : Int) : Option Int :=
  if Instant.inRange millis && Instant.inRange (i.start millis) then some (i.start millis)
  else none

end Interval

end DocSearch
