import DocSearch.Proofs.Decimal.Digits
import DocSearch.Proofs.Time.Format
import DocSearch.Proofs.Time.Period
import DocSearch.Store.Functions

/-!
# Instants are read back

A bucket key that is written as a date comes back as the text of a field or of a bound.  It
is read by several forms in turn: an integer, a date with a time and a zone, a date with a
time, and a date.  A field is padded with zeros to the width at which it is read, and no
form takes a text that was written in another one: what has a hyphen behind its first digit
is no integer, and what has no zone is no date with a zone.

## Main definitions

* `Instant.InFourDigitYears` — the instants of the years from 0 to 9999.
* `Timestamp.dateText`, `Timestamp.clockText` — how formats write the date and the time.
* `DateFormat.ReadsBack` — an instant that is written by a format is read back.

## Main results

* `Timestamp.zoned?_append`, `Timestamp.local?_append`, `Timestamp.local?_dateText` — what
  the forms read.
* `DateFormat.format_reads_back` — **which formats are read back**.
-/

namespace DocSearch

/-! ### Blanks around a text -/

namespace Text

theorem dropWhile_isBlank_eq_self {cs : List Char} (h : ∀ c ∈ cs.head?, isBlank c = false) :
    cs.dropWhile isBlank = cs := by
  cases cs with
  | nil => rfl
  | cons c cs => exact List.dropWhile_cons_of_neg (by simp [h c rfl])

/-- A text without blanks at its ends is not cut. -/
theorem trim_eq_self {s : String} (hfirst : ∀ c ∈ s.toList.head?, isBlank c = false)
    (hlast : ∀ c ∈ s.toList.getLast?, isBlank c = false) : trim s = s := by
  rw [← List.head?_reverse] at hlast
  rw [trim, dropWhile_isBlank_eq_self hfirst, dropWhile_isBlank_eq_self hlast, List.reverse_reverse,
    String.ofList_toList]

end Text

namespace Timestamp

/-! ### Numbers with zeros in front -/

section Numbers

variable {width n : Nat}

theorem digitRun_append {ds : List Char} (hds : ∀ c ∈ ds, c.isDigit = true)
    (hlength : ds.length = width) (rest : List Char) : digitRun width (ds ++ rest) = ds := by
  rw [digitRun, List.take_left' hlength]
  exact List.takeWhile_eq_self_iff.mpr hds

theorem digitRun_zeroPadded (hwidth : 0 < width) (hn : n < 10 ^ width) (rest : List Char) :
    digitRun width (zeroPadded width n ++ rest) = zeroPadded width n :=
  digitRun_append (fun _ => isDigit_of_mem_zeroPadded) (length_zeroPadded hwidth hn) rest

/-- A number is read at the width that it was padded to. -/
theorem fullNumber_zeroPadded (hwidth : 0 < width) (hn : n < 10 ^ width) (rest : List Char) :
    fullNumber width (zeroPadded width n ++ rest) = some (n, rest) := by
  have hlength := length_zeroPadded hwidth hn
  simp only [fullNumber, digitRun_zeroPadded hwidth hn, hlength, if_true, digitsValue_zeroPadded,
    List.drop_left' hlength]

/-- So it is if it could be shorter. -/
theorem shortNumber_zeroPadded (hwidth : 0 < width) (hn : n < 10 ^ width) (rest : List Char) :
    shortNumber width (zeroPadded width n ++ rest) = some (n, rest) := by
  have hne := List.isEmpty_eq_false_iff.mpr (zeroPadded_ne_nil width n)
  simp only [shortNumber, digitRun_zeroPadded hwidth hn, hne, Bool.false_eq_true, if_false,
    digitsValue_zeroPadded, List.drop_left]

/-- A number starts with a digit. -/
theorem exists_zeroPadded (width n : Nat) :
    ∃ c cs, zeroPadded width n = c :: cs ∧ c.isDigit = true := by
  obtain ⟨c, cs, hcons⟩ := List.exists_cons_of_ne_nil (zeroPadded_ne_nil width n)
  exact ⟨c, cs, hcons, isDigit_of_mem_zeroPadded (hcons ▸ List.mem_cons_self)⟩

theorem dropWhile_isBlank_zeroPadded (width n : Nat) (rest : List Char) :
    (zeroPadded width n ++ rest).dropWhile Text.isBlank = zeroPadded width n ++ rest := by
  obtain ⟨c, cs, hcons, hc⟩ := exists_zeroPadded width n
  rw [hcons, List.cons_append, List.dropWhile_cons_of_neg (by simp [isBlank_of_isDigit hc])]

/-- A field of two digits. -/
theorem paddedNumber_zeroPadded (hn : n < 100) (rest : List Char) :
    paddedNumber (zeroPadded 2 n ++ rest) = some (n, rest) := by
  rw [paddedNumber, dropWhile_isBlank_zeroPadded]
  exact shortNumber_zeroPadded (by decide) hn rest

/-- A year of four digits. -/
theorem signedYear_zeroPadded (hn : n < 10000) (rest : List Char) :
    signedYear (zeroPadded 4 n ++ rest) = some ((n : Int), rest) := by
  obtain ⟨c, cs, hcons, hc⟩ := exists_zeroPadded 4 n
  have hshort := shortNumber_zeroPadded (Nat.zero_lt_succ 3) hn rest
  rw [signedYear, dropWhile_isBlank_zeroPadded, hcons, List.cons_append]
  rw [hcons, List.cons_append] at hshort
  split
  case h_1 heq =>
    rw [(List.cons.inj heq).1] at hc
    exact absurd hc (by decide)
  case h_2 heq =>
    rw [(List.cons.inj heq).1] at hc
    exact absurd hc (by decide)
  case h_3 => rw [hshort, Option.map_some]

/-- Milliseconds behind a point. -/
theorem fractionMillis_zeroPadded (hn : n < 1000) {rest : List Char}
    (hrest : ∀ c ∈ rest.head?, c.isDigit = false) :
    fractionMillis ('.' :: (zeroPadded 3 n ++ rest)) = some (n, rest) := by
  have hdigits : ∀ c ∈ zeroPadded 3 n, c.isDigit = true := fun _ => isDigit_of_mem_zeroPadded
  have hnone : rest.takeWhile Char.isDigit = [] ∧ rest.dropWhile Char.isDigit = rest := by
    cases rest with
    | nil => exact ⟨rfl, rfl⟩
    | cons c cs =>
      have hc : ¬ c.isDigit = true := by simp [hrest c rfl]
      exact ⟨List.takeWhile_cons_of_neg hc, List.dropWhile_cons_of_neg hc⟩
  have hthree : (zeroPadded 3 n ++ ['0', '0']).take 3 = zeroPadded 3 n :=
    List.take_left' (length_zeroPadded (by decide) hn)
  have hne := List.isEmpty_eq_false_iff.mpr (zeroPadded_ne_nil 3 n)
  simp only [fractionMillis, List.takeWhile_append_of_pos hdigits,
    List.dropWhile_append_of_pos hdigits, hnone, List.append_nil, hne, Bool.false_eq_true, if_false,
    hthree, digitsValue_zeroPadded]

end Numbers

end Timestamp

/-! ### The parts of an instant -/

namespace Instant

/-- The years that are written with four digits are those from 0 to 9999. -/
def InFourDigitYears (millis : Int) : Prop :=
  ∃ d, Date.Numbered (day millis) d ∧ 0 ≤ d.year ∧ d.year ≤ 9999

variable {m : Int}

theorem inFourDigitYears_iff : InFourDigitYears m ↔
    0 ≤ (Date.ofDay (day m)).year ∧ (Date.ofDay (day m)).year ≤ 9999 := by
  simp only [InFourDigitYears, Date.numbered_iff, exists_eq_left]

theorem InFourDigitYears.inRange (h : InFourDigitYears m) : inRange m = true := by
  obtain ⟨d, hd, h0, h9999⟩ := h
  have hleast : Date.minYear = -262143 := rfl
  have hgreatest : Date.maxYear = 262142 := rfl
  exact Interval.inRange_iff.mpr ⟨d, hd, by omega, by omega⟩

/-- An instant is made of its day and the time since midnight. -/
theorem day_add_timeOfDay (m : Int) : day m * dayLength + timeOfDay m = m := by
  rw [day, timeOfDay, Int.mul_comm]
  exact Int.mul_ediv_add_emod m dayLength

theorem timeOfDay_bounds (m : Int) : 0 ≤ timeOfDay m ∧ timeOfDay m < 86400000 :=
  ⟨Int.emod_nonneg m (by decide), Int.emod_lt_of_pos m (by decide)⟩

end Instant

namespace Date.IsValid

variable {d : Date}

theorem day_le_31 (hd : d.IsValid) : d.day ≤ 31 := by
  have hle := hd.day_le
  unfold daysInMonth at hle
  split_ifs at hle <;> omega

/-- A date is put together from its parts. -/
theorem dayStart?_eq (hd : d.IsValid) (hleast : minYear ≤ d.year) (hgreatest : d.year ≤ maxYear) :
    Timestamp.dayStart? d.year d.month d.day = some (d.toDay * Instant.dayLength) := by
  rw [Timestamp.dayStart?, ofParts?, if_pos ⟨hleast, hgreatest, hd.one_le_day, hd.day_le⟩]
  rfl

end Date.IsValid

namespace Timestamp

variable {m : Int}

/-- A time of day is put together from its hours, minutes, seconds and milliseconds. -/
theorem timeOfDay?_eq (m : Int) :
    let time := Instant.timeOfDay m
    timeOfDay? (time / 3600000).toNat (time / 60000 % 60).toNat (time / 1000 % 60).toNat
      (time % 1000).toNat = some time := by
  intro time
  obtain ⟨h0, hlt⟩ := Instant.timeOfDay_bounds m
  rw [timeOfDay?, if_pos (by omega)]
  congr 1
  omega

/-! ### How formats write an instant -/

/-- The date of an instant as formats write it. -/
def dateText (m : Int) : List Char :=
  formatInstant [.field .year, .literal '-', .field .month, .literal '-', .field .day] m

/-- The time of an instant as formats write it. -/
def clockText (m : Int) : List Char :=
  formatInstant [.field .hour, .literal ':', .field .minute, .literal ':', .field .second,
    .field .pointMillis] m

theorem dateText_append (h : Instant.InFourDigitYears m) (rest : List Char) :
    let d := Date.ofDay (Instant.day m)
    dateText m ++ rest = zeroPadded 4 d.year.toNat ++ '-' :: (zeroPadded 2 d.month.toNat ++
      '-' :: (zeroPadded 2 d.day.toNat ++ rest)) := by
  have hyear := Instant.inFourDigitYears_iff.mp h
  simp [dateText, formatInstant, FormatItem.write, Directive.write, yearText, hyear]

theorem clockText_append (m : Int) (rest : List Char) :
    let time := Instant.timeOfDay m
    clockText m ++ rest = zeroPadded 2 (time / 3600000).toNat ++ ':' ::
      (zeroPadded 2 (time / 60000 % 60).toNat ++ ':' :: (zeroPadded 2 (time / 1000 % 60).toNat ++
        '.' :: (zeroPadded 3 (time % 1000).toNat ++ rest))) := by
  simp [clockText, formatInstant, FormatItem.write, Directive.write]

/-! ### What the forms read -/

/-- The fields of a date are numbers of four and two digits. -/
structure FitsFields (d : Date) : Prop where
  year : d.year.toNat < 10000 ∧ (d.year.toNat : Int) = d.year
  month : d.month.toNat < 100 ∧ (d.month.toNat : Int) = d.month
  day : d.day.toNat < 100 ∧ (d.day.toNat : Int) = d.day

theorem fitsFields_ofDay (h : Instant.InFourDigitYears m) :
    FitsFields (Date.ofDay (Instant.day m)) := by
  obtain ⟨h0, h9999⟩ := Instant.inFourDigitYears_iff.mp h
  have hvalid := Date.isValid_ofDay (Instant.day m)
  have hmonth := hvalid.one_le_month
  have hmonth' := hvalid.month_le
  have hday := hvalid.one_le_day
  have hday' := hvalid.day_le_31
  exact ⟨by omega, by omega, by omega⟩

theorem dayStart?_ofDay (h : Instant.InFourDigitYears m) :
    let d := Date.ofDay (Instant.day m)
    dayStart? d.year d.month d.day = some (Instant.day m * Instant.dayLength) := by
  intro d
  obtain ⟨h0, h9999⟩ := Instant.inFourDigitYears_iff.mp h
  have hleast : Date.minYear = -262143 := rfl
  have hgreatest : Date.maxYear = 262142 := rfl
  rw [(Date.isValid_ofDay _).dayStart?_eq (by omega) (by omega), Date.toDay_ofDay]

/-- The fields of a time are numbers of two and three digits. -/
theorem clock_fits (m : Int) :
    let time := Instant.timeOfDay m
    (time / 3600000).toNat < 100 ∧ (time / 60000 % 60).toNat < 100 ∧
      (time / 1000 % 60).toNat < 100 ∧ (time % 1000).toNat < 1000 := by
  obtain ⟨h0, hlt⟩ := Instant.timeOfDay_bounds m
  omega

theorem behind_self (c : Char) (cs : List Char) : behind [c] (c :: cs) = some cs := by
  simp [behind]

/-- A date. -/
theorem localDate_append (h : Instant.InFourDigitYears m) (rest : List Char) :
    localDate (dateText m ++ rest) = some (Instant.day m * Instant.dayLength, rest) := by
  obtain ⟨hyear, hmonth, hday⟩ := fitsFields_ofDay h
  simp only [localDate, dateText_append h, signedYear_zeroPadded hyear.1, behind_self,
    paddedNumber_zeroPadded hmonth.1, paddedNumber_zeroPadded hday.1, hyear.2, hmonth.2, hday.2,
    dayStart?_ofDay h, Option.bind_eq_bind, Option.bind_some, Option.pure_def]

/-- A time of day. -/
theorem localSeconds?_clockText (m : Int) :
    localSeconds? (clockText m) = some (Instant.timeOfDay m) := by
  obtain ⟨hhour, hminute, hsecond, hmillis⟩ := clock_fits m
  have hend : ∀ c ∈ ([] : List Char).head?, c.isDigit = false := by simp
  rw [← List.append_nil (clockText m), clockText_append]
  simp only [localSeconds?, localMinutes, paddedNumber_zeroPadded hhour, behind_self,
    paddedNumber_zeroPadded hminute, paddedNumber_zeroPadded hsecond,
    fractionMillis_zeroPadded hmillis hend, timeOfDay?_eq, Option.bind_eq_bind, Option.bind_some,
    Option.pure_def, List.isEmpty_nil, if_true]

/-- A blank in front of a time does not matter. -/
theorem localSeconds?_blank (cs : List Char) : localSeconds? (' ' :: cs) = localSeconds? cs := by
  have hblank : (' ' :: cs).dropWhile Text.isBlank = cs.dropWhile Text.isBlank :=
    List.dropWhile_cons_of_pos rfl
  simp only [localSeconds?, localMinutes, paddedNumber, hblank]

/-- **A date and a time without a zone.** -/
theorem local?_append (h : Instant.InFourDigitYears m) {separator : Char}
    (hseparator : separator ∈ ['T', ' ']) :
    local? (dateText m ++ separator :: clockText m) = some m := by
  have hclock := localSeconds?_clockText m
  have hsum := Instant.day_add_timeOfDay m
  rcases List.mem_pair.mp hseparator with rfl | rfl
  · simp [local?, localDate_append h, hclock, hsum]
  · simp [local?, localDate_append h, localSeconds?_blank, hclock, hsum]

/-- **A date.** -/
theorem local?_dateText (h : Instant.InFourDigitYears m) :
    local? (dateText m) = some (Instant.day m * Instant.dayLength) := by
  have hdate := localDate_append h []
  rw [List.append_nil] at hdate
  simp [local?, hdate]

/-- What a reader goes on with if a part is read. -/
theorem bind_of_eq_some {α β : Type} {x : Option α} {a : α} (f : α → Option β) (h : x = some a) :
    (x >>= f) = f a := by
  rw [h]
  rfl

/-- The instant of a time and a zone behind the date of a day, given the start of the day. -/
def zonedTime? (start : Int) (cs : List Char) : Option Int := do
  let (hour, cs) ← fullNumber 2 (← behind ['T', 't', ' '] cs)
  let (minute, cs) ← fullNumber 2 (← behind [':'] cs)
  let (second, cs) ← fullNumber 2 (← behind [':'] cs)
  let (millis, cs) ← fractionMillis cs
  let (ahead, cs) ← zoneMinutes cs
  if cs.isEmpty then return start + (← timeOfDay? hour minute second millis) - 60000 * ahead
  else none

/-- A date in front is read at its full width. -/
theorem zoned?_dateText_append (h : Instant.InFourDigitYears m) (rest : List Char) :
    zoned? (dateText m ++ rest) = zonedTime? (Instant.day m * Instant.dayLength) rest := by
  obtain ⟨hyear, hmonth, hday⟩ := fitsFields_ofDay h
  rw [dateText_append h, zoned?]
  refine (bind_of_eq_some _ (fullNumber_zeroPadded (by decide) hyear.1 _)).trans ?_
  refine (bind_of_eq_some _ (behind_self _ _)).trans ?_
  refine (bind_of_eq_some _ (fullNumber_zeroPadded (by decide) hmonth.1 _)).trans ?_
  refine (bind_of_eq_some _ (behind_self _ _)).trans ?_
  refine (bind_of_eq_some _ (fullNumber_zeroPadded (by decide) hday.1 _)).trans ?_
  simp only [hyear.2, hmonth.2, hday.2, dayStart?_ofDay h, Option.bind_eq_bind, Option.bind_some]
  rfl

/-- A date is no instant with a zone. -/
theorem zoned?_dateText (h : Instant.InFourDigitYears m) : zoned? (dateText m) = none := by
  rw [← List.append_nil (dateText m), zoned?_dateText_append h]
  rfl

/-- **A date, a time and a zone.**  Without a zone there is no such instant. -/
theorem zoned?_append (h : Instant.InFourDigitYears m) {separator : Char}
    (hseparator : separator ∈ ['T', ' ']) {zone : List Char} (hzone : zone = [] ∨ zone = ['Z']) :
    zoned? (dateText m ++ separator :: (clockText m ++ zone)) =
      if zone = [] then none else some m := by
  obtain ⟨hhour, hminute, hsecond, hmillis⟩ := clock_fits m
  have hbehind : ∀ cs, behind ['T', 't', ' '] (separator :: cs) = some cs := by
    intro cs
    rcases List.mem_pair.mp hseparator with rfl | rfl <;> rfl
  have hend : ∀ c ∈ zone.head?, c.isDigit = false := by
    rcases hzone with rfl | rfl <;> simp
  rw [zoned?_dateText_append h, clockText_append, zonedTime?]
  refine (bind_of_eq_some _ (hbehind _)).trans ?_
  refine (bind_of_eq_some _ (fullNumber_zeroPadded (by decide) hhour _)).trans ?_
  refine (bind_of_eq_some _ (behind_self _ _)).trans ?_
  refine (bind_of_eq_some _ (fullNumber_zeroPadded (by decide) hminute _)).trans ?_
  refine (bind_of_eq_some _ (behind_self _ _)).trans ?_
  refine (bind_of_eq_some _ (fullNumber_zeroPadded (by decide) hsecond _)).trans ?_
  refine (bind_of_eq_some _ (fractionMillis_zeroPadded hmillis hend)).trans ?_
  rcases hzone with rfl | rfl
  · rfl
  · have hsum := Instant.day_add_timeOfDay m
    simp [zoneMinutes, timeOfDay?_eq, hsum]

/-! ### Texts that are written by a format -/

/-- A text with a date in front starts with a digit, but it is no integer. -/
theorem readInt_dateText (h : Instant.InFourDigitYears m) (rest : List Char) :
    readInt (dateText m ++ rest) = none ∧
      ∀ c ∈ (dateText m ++ rest).head?, Text.isBlank c = false := by
  obtain ⟨c, cs, hcons, hc⟩ := exists_zeroPadded 4 (Date.ofDay (Instant.day m)).year.toNat
  rw [dateText_append h, hcons, List.cons_append]
  refine ⟨readInt_eq_none hc (d := '-') (by simp) (by decide), fun d hd => ?_⟩
  rw [← Option.some.inj hd]
  exact isBlank_of_isDigit hc

theorem isBlank_getLast?_zeroPadded {before : List Char} {c : Char} {width n : Nat} :
    ∀ d ∈ (before ++ c :: zeroPadded width n).getLast?, Text.isBlank d = false := by
  intro d hd
  rw [List.append_cons, List.getLast?_append_of_ne_nil _ (zeroPadded_ne_nil width n)] at hd
  exact isBlank_of_isDigit (isDigit_of_mem_zeroPadded (List.mem_of_getLast? hd))

/-- A date ends with a digit. -/
theorem isBlank_getLast?_dateText (h : Instant.InFourDigitYears m) :
    ∀ c ∈ (dateText m).getLast?, Text.isBlank c = false := by
  have hdate := dateText_append h []
  simp only [List.append_nil, ← List.cons_append, ← List.append_assoc] at hdate
  rw [hdate]
  exact isBlank_getLast?_zeroPadded

/-- A time ends with a digit, or with its zone. -/
theorem isBlank_getLast?_clockText {zone : List Char} (hzone : zone = [] ∨ zone = ['Z'])
    (before : List Char) :
    ∀ c ∈ (before ++ (clockText m ++ zone)).getLast?, Text.isBlank c = false := by
  rcases hzone with rfl | rfl
  · have hclock := clockText_append m []
    simp only [List.append_nil, ← List.cons_append, ← List.append_assoc] at hclock
    rw [List.append_nil, hclock, ← List.append_assoc]
    exact isBlank_getLast?_zeroPadded
  · intro c hc
    rw [← List.append_assoc, List.getLast?_concat] at hc
    rw [← Option.some.inj hc]
    decide

/-- What is no integer is read as a date. -/
theorem read_eq {s : String} {n : Int64} (hfirst : ∀ c ∈ s.toList.head?, Text.isBlank c = false)
    (hlast : ∀ c ∈ s.toList.getLast?, Text.isBlank c = false) (hint : readInt s.toList = none)
    (hdate : (zoned? s.toList).or (local? s.toList) = some n.toInt) : read s = some n := by
  rw [read, Text.trim_eq_self hfirst hlast, readInt64, hint, hdate]
  simp

/-- **A date and a time in UTC are read**, with or without a zone. -/
theorem read_dateTime {s : String} {n : Int64} (h : Instant.InFourDigitYears n.toInt)
    {separator : Char} (hseparator : separator ∈ ['T', ' ']) {zone : List Char}
    (hzone : zone = [] ∨ zone = ['Z'])
    (hs : s.toList = dateText n.toInt ++ separator :: (clockText n.toInt ++ zone)) :
    read s = some n := by
  obtain ⟨hint, hfirst⟩ := readInt_dateText h (separator :: (clockText n.toInt ++ zone))
  have hzoned := zoned?_append h hseparator hzone
  rw [← hs] at hint hfirst hzoned
  refine read_eq hfirst ?_ hint ?_
  · rw [hs, List.append_cons]
    exact isBlank_getLast?_clockText hzone _
  · rcases hzone with rfl | rfl
    · rw [List.append_nil] at hs
      rw [hzoned, hs, local?_append h hseparator]
      rfl
    · rw [hzoned]
      rfl

/-- **A date is read as the start of its day.** -/
theorem read_dateText {s : String} {n : Int64} (h : Instant.InFourDigitYears n.toInt)
    (hstart : Instant.day n.toInt * Instant.dayLength = n.toInt)
    (hs : s.toList = dateText n.toInt) : read s = some n := by
  obtain ⟨hint, hfirst⟩ := readInt_dateText h []
  rw [List.append_nil, ← hs] at hint hfirst
  refine read_eq hfirst (hs ▸ isBlank_getLast?_dateText h) hint ?_
  rw [hs, local?_dateText h, hstart, zoned?_dateText h]
  rfl

end Timestamp

/-! ### Formats that are read back -/

namespace DateFormat

open Timestamp

/-- The text of an instant by a format is read as the same instant. -/
def ReadsBack (pattern : String) (n : Int64) : Prop :=
  ∃ f, read pattern = .ok f ∧
    ScalarFunction.parseTimestamp.call? [.cell (.text (f.format n.toInt))] =
      some (.ok (.integer n))

variable {n : Int64}

/-- A format is read back if the reader of timestamps reads its text. -/
theorem readsBack_of_read {pattern : String} {f : DateFormat} (hf : read pattern = .ok f)
    (htext : Timestamp.read (f.format n.toInt) = some n) : ReadsBack pattern n := by
  refine ⟨f, hf, ?_⟩
  simp only [ScalarFunction.call?, ScalarFunction.toTimestamp, htext]

/-- A number of milliseconds is read back. -/
theorem readsBack_epochMillis (n : Int64) : ReadsBack "epoch_millis" n := by
  refine readsBack_of_read (f := ⟨"epoch_millis", .epochMillis⟩) rfl ?_
  show Timestamp.read (toString n.toInt) = some n
  have htrim : Text.trim (toString n.toInt) = toString n.toInt :=
    Text.trim_eq_self (fun _ hc => isBlank_of_mem_toString (List.mem_of_mem_head? hc))
      fun _ hc => isBlank_of_mem_toString (List.mem_of_getLast? hc)
  rw [Timestamp.read, htrim, readInt64_toString]
  rfl

/-- A date and a time with a point between seconds and milliseconds. -/
theorem spells_local (separator : Char) (h : separator ≠ '%') :
    Spells ("%Y-%m-%d".toList ++ separator :: "%H:%M:%S.%3f".toList)
      [.field .year, .literal '-', .field .month, .literal '-', .field .day, .literal separator,
        .field .hour, .literal ':', .field .minute, .literal ':', .field .second, .literal '.',
        .field .millis] := by
  have hclock : Spells "%H:%M:%S.%3f".toList [.field .hour, .literal ':', .field .minute,
      .literal ':', .field .second, .literal '.', .field .millis] :=
    .field .hour <| .literal ':' <| .field .minute <| .literal ':' <| .field .second <|
      .literal '.' <| .field .millis .nil
  have hspells := spells_date.append (hclock.literal separator)
  rwa [escapeLiteral, if_neg h] at hspells

/-- A format that writes a date, a time in UTC and perhaps the zone is read back. -/
theorem readsBack_dateTime (h : Instant.InFourDigitYears n.toInt) (separator : Char)
    (hseparator : separator ∈ ['T', ' ']) {pattern : String} {text : List Char}
    (hread : read pattern = .ok ⟨pattern, .directives text⟩) {items : List FormatItem}
    (hspells : Spells text items) {zone : List Char} (hzone : zone = [] ∨ zone = ['Z'])
    (hitems : formatInstant items n.toInt =
      dateText n.toInt ++ separator :: (clockText n.toInt ++ zone)) : ReadsBack pattern n :=
  readsBack_of_read hread <| read_dateTime h hseparator hzone <|
    (format_of_spells rfl hspells h.inRange).trans hitems

/-- A format that writes a date is read back at the start of a day. -/
theorem readsBack_date (h : Instant.InFourDigitYears n.toInt)
    (hstart : Interval.day.IsStart n.toInt) {pattern : String}
    (hread : read pattern = .ok ⟨pattern, .directives "%Y-%m-%d".toList⟩) :
    ReadsBack pattern n := by
  obtain ⟨k, hk, -⟩ := hstart
  have hday : Instant.day n.toInt * Instant.dayLength = n.toInt := by
    rw [hk, Instant.day, Int.mul_ediv_cancel _ (by decide)]
  exact readsBack_of_read hread <|
    read_dateText h hday (format_of_spells rfl spells_date h.inRange)

/-- **Which formats are read back.**  A number of milliseconds always is.  In the years from 0 to
9999 a date and a time are, with or without a zone, and a date is at the start of its day. -/
theorem format_reads_back (n : Int64) :
    ReadsBack "epoch_millis" n ∧
    (Instant.InFourDigitYears n.toInt →
      (∀ pattern ∈ ["date_optional_time", "yyyy-MM-dd'T'HH:mm:ss.SSS", "yyyy-MM-dd HH:mm:ss.SSS"],
        ReadsBack pattern n) ∧
      (Interval.day.IsStart n.toInt →
        ∀ pattern ∈ ["date", "yyyy-MM-dd"], ReadsBack pattern n)) := by
  refine ⟨readsBack_epochMillis n, fun h => ⟨?_, fun hstart => ?_⟩⟩
  · have hzoned : ReadsBack "date_optional_time" n :=
      readsBack_dateTime h 'T' (by decide) (by decide +kernel) spells_dateTime (.inr rfl)
        (by simp [dateText, clockText, formatInstant, FormatItem.write])
    have hlocal : ReadsBack "yyyy-MM-dd'T'HH:mm:ss.SSS" n :=
      readsBack_dateTime h 'T' (by decide) (by decide +kernel) (spells_local 'T' (by decide))
        (.inl rfl) (by simp [dateText, clockText, formatInstant, FormatItem.write, Directive.write])
    have hblank : ReadsBack "yyyy-MM-dd HH:mm:ss.SSS" n :=
      readsBack_dateTime h ' ' (by decide) (by decide +kernel) (spells_local ' ' (by decide))
        (.inl rfl) (by simp [dateText, clockText, formatInstant, FormatItem.write, Directive.write])
    simpa using ⟨hzoned, hlocal, hblank⟩
  · have hnamed : ReadsBack "date" n := readsBack_date h hstart (by decide +kernel)
    have hspelled : ReadsBack "yyyy-MM-dd" n := readsBack_date h hstart (by decide +kernel)
    simpa using ⟨hnamed, hspelled⟩

/-- The last millisecond before 1970 with its time, and the first day of the year 0. -/
theorem format_reads_back_boundaries :
    Instant.InFourDigitYears (-1 : Int64).toInt ∧ ReadsBack "yyyy-MM-dd HH:mm:ss.SSS" (-1) ∧
      Instant.InFourDigitYears (-62167219200000 : Int64).toInt ∧
      Interval.day.IsStart (-62167219200000 : Int64).toInt ∧
      ReadsBack "date" (-62167219200000) := by
  have hbefore : Instant.InFourDigitYears (-1 : Int64).toInt :=
    Instant.inFourDigitYears_iff.mpr (by decide)
  have hfirst : Instant.InFourDigitYears (-62167219200000 : Int64).toInt :=
    Instant.inFourDigitYears_iff.mpr (by decide)
  have hstart : Interval.day.IsStart (-62167219200000 : Int64).toInt :=
    ⟨-719528, by decide, trivial⟩
  exact ⟨hbefore, ((format_reads_back (-1)).2 hbefore).1 _ (by simp), hfirst, hstart,
    ((format_reads_back _).2 hfirst).2 hstart _ (by simp)⟩

end DateFormat

end DocSearch
