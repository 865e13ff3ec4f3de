import DocSearch.Decimal.Numeral
import DocSearch.Time.Calendar

/-!
# Reading timestamps

A timestamp is written in one of these forms, with blanks around it:

```text
1704412800000                     milliseconds since 1970
2024-01-05T10:00:00.5+01:00       date, time and zone, every field at full width
2024-01-05T10:00:00.5             the rest is in UTC; fields may be shorter
2024-01-05 10:00:00.5
2024-01-05T10:00
2024-01-05
```

In the first of these with a date, the `T` may be lower case or a blank and the
zone a `Z`.  In the others a field may have blanks in front, and a year of more
than four digits needs a sign.  The sixtieth second of a minute is a leap second;
it is counted as the first one of the next minute.  Fractions are cut off to
milliseconds.

## Main definitions

* `Timestamp.zoned?`, `Timestamp.local?` — the instant that is written with or
  without a zone.
* `Timestamp.read` — the instant of a text.
-/

namespace DocSearch.Timestamp

/-! ### Fields -/

/-- The digits in front, `max` at most. -/
def digitRun (max : Nat) (cs : List Char) : List Char := (cs.take max).takeWhile Char.isDigit

/-- A number of exactly `width` digits, and the rest. -/
def fullNumber (width : Nat) (cs : List Char) : Option (Nat × List Char) :=
  let digits := digitRun width cs
  if digits.length = width then some (digitsValue digits, cs.drop width) else none

/-- A number of at least one digit and at most `width`, and the rest. -/
def shortNumber (width : Nat) (cs : List Char) : Option (Nat × List Char) :=
  let digits := digitRun width cs
  if digits.isEmpty then none else some (digitsValue digits, cs.drop digits.length)

/-- A number of up to two digits with blanks in front, and the rest. -/
def paddedNumber (cs : List Char) : Option (Nat × List Char) :=
  shortNumber 2 (cs.dropWhile Text.isBlank)

/-- A year with blanks in front, and the rest: up to four digits, or a sign and any
number of digits. -/
def signedYear (cs : List Char) : Option (Int × List Char) :=
  match cs.dropWhile Text.isBlank with
  | '-' :: cs => (shortNumber cs.length cs).map fun (n, rest) => (-(n : Int), rest)
  | '+' :: cs => (shortNumber cs.length cs).map fun (n, rest) => ((n : Int), rest)
  | cs => (shortNumber 4 cs).map fun (n, rest) => ((n : Int), rest)

/-- The text behind one of several characters. -/
def behind (accepted : List Char) : List Char → Option (List Char)
  | c :: cs => if accepted.contains c then some cs else none
  | [] => none

/-- The milliseconds of a fraction of a second, and the rest; without a point there
is no fraction. -/
def fractionMillis : List Char → Option (Nat × List Char)
  | '.' :: cs =>
    let digits := cs.takeWhile Char.isDigit
    if digits.isEmpty then none
    else
      let three := (digits ++ ['0', '0']).take 3
      some (digitsValue three, cs.dropWhile Char.isDigit)
  | cs => some (0, cs)

/-- The minutes that a zone is ahead of UTC, and the rest. -/
def zoneMinutes : List Char → Option (Int × List Char)
  | [] => none
  | c :: cs =>
    if c = 'Z' ∨ c = 'z' then some (0, cs)
    else if c = '+' ∨ c = '-' ∨ c = '\u2212' then do
      let (hours, cs) ← fullNumber 2 cs
      let cs ← behind [':'] cs
      let (minutes, cs) ← fullNumber 2 cs
      let ahead : Int := 60 * hours + minutes
      if hours < 24 ∧ minutes < 60 then some (if c = '+' then ahead else -ahead, cs) else none
    else none

/-! ### Instants -/

/-- The start of a day of the calendar. -/
def dayStart? (year month day : Int) : Option Int :=
  (Date.ofParts? year month day).map fun d => d.toDay * Instant.dayLength

/-- The milliseconds since midnight of a time of day. -/
def timeOfDay? (hour minute second millis : Nat) : Option Int :=
  if hour < 24 ∧ minute < 60 ∧ second ≤ 60 then
    some (3600000 * hour + 60000 * minute + 1000 * second + millis)
  else none

/-- The instant of a date, a time and a zone, and nothing else. -/
def zoned? (cs : List Char) : Option Int := do
  let (year, cs) ← fullNumber 4 cs
  let (month, cs) ← fullNumber 2 (← behind ['-'] cs)
  let (day, cs) ← fullNumber 2 (← behind ['-'] cs)
  let (hour, cs) ← fullNumber 2 (← behind ['T', 't', ' '] cs)
  let (minute, cs) ← fullNumber 2 (← behind [':'] cs)
  let (second, cs) ← fullNumber 2 (← behind [':'] cs)
  let (millis, cs) ← fractionMillis cs
  let (ahead, cs) ← zoneMinutes cs
  if cs.isEmpty then
    return (← dayStart? year month day) + (← timeOfDay? hour minute second millis) - 60000 * ahead
  else none

/-- A date in UTC, and the rest. -/
def localDate (cs : List Char) : Option (Int × List Char) := do
  let (year, cs) ← signedYear cs
  let (month, cs) ← paddedNumber (← behind ['-'] cs)
  let (day, cs) ← paddedNumber (← behind ['-'] cs)
  return (← dayStart? year month day, cs)

/-- Hours and minutes, and the rest. -/
def localMinutes (cs : List Char) : Option (Nat × Nat × List Char) := do
  let (hour, cs) ← paddedNumber cs
  let (minute, cs) ← paddedNumber (← behind [':'] cs)
  return (hour, minute, cs)

/-- A time of day with seconds, and nothing else. -/
def localSeconds? (cs : List Char) : Option Int := do
  let (hour, minute, cs) ← localMinutes cs
  let (second, cs) ← paddedNumber (← behind [':'] cs)
  let (millis, cs) ← fractionMillis cs
  if cs.isEmpty then timeOfDay? hour minute second millis else none

/-- A time of day without seconds, and nothing else. -/
def localTime? (cs : List Char) : Option Int := do
  let (hour, minute, cs) ← localMinutes cs
  if cs.isEmpty then timeOfDay? hour minute 0 0 else none

/-- The instant of a date in UTC with or without a time, and nothing else. -/
def local? (cs : List Char) : Option Int := do
  let (start, rest) ← localDate cs
  let time ← match rest with
    | [] => some 0
    | 'T' :: time => (localSeconds? time).or (localTime? time)
    | _ => localSeconds? rest
  return start + time

/-- The instant of a text. -/
def read (s : String) : Option Int64 :=
  let s := Text.trim s
  (readInt64 s).or (((zoned? s.toList).or (local? s.toList)).map Int64.ofInt)

end DocSearch.Timestamp
