/-!
# The calendar

Days are counted from 1970-01-01 in the proleptic Gregorian calendar, instants
in milliseconds from the midnight that starts that day, in UTC.  A year is
counted from March, so that the leap day is its last one; four hundred years
form an era of 146097 days.

## Main definitions

* `Date` — year, month and day.
* `Date.ofDay`, `Date.toDay` — the date of a day number, and back.
* `Instant.inRange` — the instants that are supported.
-/

namespace DocSearch

/-- A day of the calendar. -/
structure Date where
  /-- The astronomical year; year zero precedes year one. -/
  year : Int
  /-- The month, from one. -/
  month : Int
  /-- The day of the month, from one. -/
  day : Int
  deriving DecidableEq, Repr

namespace Date

/-- The number of a day that is given by year, month and day of the month. -/
def toDay (d : Date) : Int :=
  let year := if d.month ≤ 2 then d.year - 1 else d.year
  let era := year / 400
  let yearOfEra := year - 400 * era
  let month := if d.month ≤ 2 then d.month + 9 else d.month - 3
  let dayOfYear := (153 * month + 2) / 5 + d.day - 1
  146097 * era + 365 * yearOfEra + yearOfEra / 4 - yearOfEra / 100 + dayOfYear - 719468

/-- The date of the day with the number `n`. -/
def ofDay (n : Int) : Date :=
  let n := n + 719468
  let era := n / 146097
  let dayOfEra := n - 146097 * era
  let yearOfEra := (dayOfEra - dayOfEra / 1460 + dayOfEra / 36524 - dayOfEra / 146096) / 365
  let dayOfYear := dayOfEra - (365 * yearOfEra + yearOfEra / 4 - yearOfEra / 100)
  let month := (5 * dayOfYear + 2) / 153
  let day := dayOfYear - (153 * month + 2) / 5 + 1
  if month < 10 then ⟨400 * era + yearOfEra, month + 3, day⟩
  else ⟨400 * era + yearOfEra + 1, month - 9, day⟩

/-- Whether a year has a leap day. -/
def isLeap (year : Int) : Bool :=
  year % 4 == 0 && (year % 100 != 0 || year % 400 == 0)

/-- How many days a month has; no other month has any. -/
def daysInMonth (year month : Int) : Int :=
  if month == 2 then (if isLeap year then 29 else 28)
  else if month == 4 || month == 6 || month == 9 || month == 11 then 30
  else if 1 ≤ month ∧ month ≤ 12 then 31
  else 0

/-- The years that are supported. -/
def minYear : Int := -262143

/-- The last year that is supported. -/
def maxYear : Int := 262142

/-- The date with these parts, if there is one in the supported years. -/
def ofParts? (year month day : Int) : Option Date :=
  if minYear ≤ year ∧ year ≤ maxYear ∧ 1 ≤ day ∧ day ≤ daysInMonth year month then
    some ⟨year, month, day⟩
  else none

end Date

namespace Instant

/-- The milliseconds of a day. -/
def dayLength : Int := 86400000

/-- The first instant that is supported, the start of the year -262143. -/
def earliest : Int := (Date.toDay ⟨Date.minYear, 1, 1⟩) * dayLength

/-- The last instant that is supported, the end of the year 262142. -/
def latest : Int := (Date.toDay ⟨Date.maxYear + 1, 1, 1⟩) * dayLength - 1

/-- Whether an instant is supported. -/
def inRange (millis : Int) : Bool := earliest ≤ millis && millis ≤ latest

/-- The number of the day of an instant. -/
def day (millis : Int) : Int := millis / dayLength

/-- The milliseconds since midnight. -/
def timeOfDay (millis : Int) : Int := millis % dayLength

end Instant

end DocSearch
