import DocSearch.Time.Calendar
import DocSearch.Decimal.Shortest

/-!
# Format directives

A format is a text in which a percent sign starts a directive, for instance
`%Y-%m-%d`.  It is read into items, and an instant is written by writing each
item.  Names are English, and the zone is always UTC.

## Main definitions

* `Directive` — the fields of an instant that can be written.
* `FormatItem` — a directive, a character that stands for itself, or an error.
* `formatItems` — the items of a format.
* `formatInstant` — an instant by a list of items.
-/

namespace DocSearch

/-- A field of an instant. -/
inductive Directive where
  /-- The year, at least four digits; with a sign before zero and above 9999. -/
  | year
  /-- The year modulo one hundred, two digits. -/
  | shortYear
  /-- The month, two digits. -/
  | month
  /-- The month without padding. -/
  | bareMonth
  /-- The first three letters of the month. -/
  | monthLetters
  /-- The name of the month. -/
  | monthName
  /-- The day of the month, two digits. -/
  | day
  /-- The day of the month without padding. -/
  | bareDay
  /-- The hour, two digits. -/
  | hour
  /-- The hour without padding. -/
  | bareHour
  /-- The hour of the half day from 01 to 12. -/
  | halfDayHour
  /-- The minute, two digits. -/
  | minute
  /-- The second, two digits. -/
  | second
  /-- The milliseconds, three digits. -/
  | millis
  /-- A point and the milliseconds. -/
  | pointMillis
  /-- `AM` or `PM`. -/
  | halfDay
  /-- The first three letters of the weekday. -/
  | weekdayLetters
  /-- The name of the weekday. -/
  | weekday
  /-- The offset of the zone. -/
  | zone
  deriving DecidableEq, Repr

/-- A part of a format. -/
inductive FormatItem where
  /-- A field. -/
  | field (d : Directive)
  /-- A character that stands for itself. -/
  | literal (c : Char)
  /-- A percent sign that starts no directive. -/
  | error
  deriving DecidableEq, Repr

/-- The field of a directive of one letter. -/
def letterField? : Char → Option Directive
  | 'Y' => some .year
  | 'y' => some .shortYear
  | 'm' => some .month
  | 'b' => some .monthLetters
  | 'B' => some .monthName
  | 'd' => some .day
  | 'H' => some .hour
  | 'I' => some .halfDayHour
  | 'M' => some .minute
  | 'S' => some .second
  | 'p' => some .halfDay
  | 'a' => some .weekdayLetters
  | 'A' => some .weekday
  | 'z' => some .zone
  | _ => none

/-- The field of a letter behind a minus sign, which takes the padding away. -/
def bareField? : Char → Option Directive
  | 'm' => some .bareMonth
  | 'd' => some .bareDay
  | 'H' => some .bareHour
  | _ => none

/-- A field, or an error where there is none. -/
def FormatItem.ofField? : Option Directive → FormatItem
  | some d => .field d
  | none => .error

/-- The items of a format. -/
def formatItems : List Char → List FormatItem
  | [] => []
  | '%' :: '%' :: cs => .literal '%' :: formatItems cs
  | '%' :: '-' :: c :: cs => .ofField? (bareField? c) :: formatItems cs
  | '%' :: '3' :: 'f' :: cs => .field .millis :: formatItems cs
  | '%' :: '.' :: '3' :: 'f' :: cs => .field .pointMillis :: formatItems cs
  | '%' :: c :: cs => .ofField? (letterField? c) :: formatItems cs
  | c :: cs => (if c = '%' then .error else .literal c) :: formatItems cs

/-! ### Writing an instant -/

/-- The names of the months. -/
def monthNames : List String :=
  ["January", "February", "March", "April", "May", "June", "July", "August", "September",
   "October", "November", "December"]

/-- The names of the weekdays, from Monday. -/
def weekdayNames : List String :=
  ["Monday", "Tuesday", "Wednesday", "Thursday", "Friday", "Saturday", "Sunday"]

/-- A natural number with zeros in front, at least `width` digits. -/
def zeroPadded (width n : Nat) : List Char :=
  let digits := Nat.toDigits 10 n
  List.replicate (width - digits.length) '0' ++ digits

/-- The year: four digits from 0 to 9999, otherwise a sign and at least four digits. -/
def yearText (year : Int) : List Char :=
  if 0 ≤ year ∧ year ≤ 9999 then zeroPadded 4 year.toNat
  else (if year < 0 then '-' else '+') :: zeroPadded 4 year.natAbs

/-- The first three letters of a name. -/
private def threeLetters (name : String) : List Char := name.toList.take 3

/-- The text of a field of an instant. -/
def Directive.write (d : Directive) (millis : Int) : List Char :=
  let date := Date.ofDay (Instant.day millis)
  let time := Instant.timeOfDay millis
  let hourOfDay := time / 3600000
  let monthName := monthNames.getD (date.month - 1).toNat ""
  let weekdayName := weekdayNames.getD ((Instant.day millis + 3) % 7).toNat ""
  match d with
  | .year => yearText date.year
  | .shortYear => zeroPadded 2 (date.year % 100).toNat
  | .month => zeroPadded 2 date.month.toNat
  | .bareMonth => zeroPadded 1 date.month.toNat
  | .monthLetters => threeLetters monthName
  | .monthName => monthName.toList
  | .day => zeroPadded 2 date.day.toNat
  | .bareDay => zeroPadded 1 date.day.toNat
  | .hour => zeroPadded 2 hourOfDay.toNat
  | .bareHour => zeroPadded 1 hourOfDay.toNat
  | .halfDayHour => zeroPadded 2 ((hourOfDay + 11) % 12 + 1).toNat
  | .minute => zeroPadded 2 (time / 60000 % 60).toNat
  | .second => zeroPadded 2 (time / 1000 % 60).toNat
  | .millis => zeroPadded 3 (time % 1000).toNat
  | .pointMillis => '.' :: zeroPadded 3 (time % 1000).toNat
  | .halfDay => if hourOfDay < 12 then ['A', 'M'] else ['P', 'M']
  | .weekdayLetters => threeLetters weekdayName
  | .weekday => weekdayName.toList
  | .zone => ['+', '0', '0', '0', '0']

/-- The text of an item; an error has none. -/
def FormatItem.write (item : FormatItem) (millis : Int) : List Char :=
  match item with
  | .field d => d.write millis
  | .literal c => [c]
  | .error => []

/-- The text of an instant by a list of items. -/
def formatInstant (items : List FormatItem) (millis : Int) : List Char :=
  items.flatMap (·.write millis)

end DocSearch
