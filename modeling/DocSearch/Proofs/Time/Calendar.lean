import DocSearch.Time.Calendar
import Mathlib.Algebra.Order.SuccPred
import Mathlib.Data.Int.SuccPred
import Mathlib.Order.SuccPred.Archimedean
import Mathlib.Tactic.IntervalCases

/-!
# Counting days

The calendar is given by how it is counted: day zero is 1970-01-01, and behind the last
day of a month stands the first day of the next month.  The formulas for the date of a
day and for the day of a date agree with this count in both directions, for every year.

All months are counted in a row as well.  A month starts by a day exactly if it is the
month of this day or an earlier one, and this is all that truncating an instant to months,
quarters or years needs to know about the calendar.

## Main definitions

* `Date.IsValid` — there is such a date.
* `Date.Numbered` — the number of a day and its date, by counting.
* `Date.monthNumber`, `Date.monthStart` — months in a row, and the day on which one starts.

## Main results

* `Date.numbered_iff` — the date of a day is found by counting.
* `Date.ofDay_toDay`, `Date.toDay_ofDay` — days and dates correspond.
* `Date.monthStart_le_iff` — which months have started by a day.
-/

namespace DocSearch

namespace Date

/-- Whether there is such a date. -/
structure IsValid (d : Date) : Prop where
  /-- Months are counted from one. -/
  one_le_month : 1 ≤ d.month
  /-- There are twelve of them. -/
  month_le : d.month ≤ 12
  /-- Days are counted from one. -/
  one_le_day : 1 ≤ d.day
  /-- The month has that many days. -/
  day_le : d.day ≤ daysInMonth d.year d.month

/-- The day after a date. -/
def next (d : Date) : Date :=
  if d.day < daysInMonth d.year d.month then ⟨d.year, d.month, d.day + 1⟩
  else if d.month < 12 then ⟨d.year, d.month + 1, 1⟩
  else ⟨d.year + 1, 1, 1⟩

/-- The number of a day and its date, counted from 1970-01-01 in either direction. -/
inductive Numbered : Int → Date → Prop where
  /-- Where the count starts. -/
  | epoch : Numbered 0 ⟨1970, 1, 1⟩
  /-- One day on. -/
  | after {n : Int} {d : Date} (h : Numbered n d) : Numbered (n + 1) d.next
  /-- One day back. -/
  | before {n : Int} {d : Date} (hd : d.IsValid) (h : Numbered (n + 1) d.next) : Numbered n d

theorem isLeap_iff (year : Int) :
    isLeap year = true ↔ year % 4 = 0 ∧ (year % 100 ≠ 0 ∨ year % 400 = 0) := by
  simp [isLeap]

/-! ### Months in a row -/

/-- The number of the month of a date, all months being counted in a row. -/
def monthNumber (d : Date) : Int := 12 * d.year + (d.month - 1)

/-- The day on which a month starts, all months being counted in a row. -/
def monthStart (k : Int) : Int := toDay ⟨k / 12, k % 12 + 1, 1⟩

/-- How many days a month has, all months being counted in a row. -/
def monthLength (k : Int) : Int := daysInMonth (k / 12) (k % 12 + 1)

theorem monthStart_eq_toDay (year : Int) {r : Int} (h0 : 0 ≤ r) (h12 : r < 12) :
    monthStart (12 * year + r) = toDay ⟨year, r + 1, 1⟩ := by
  have hyear : (12 * year + r) / 12 = year := by omega
  have hmonth : (12 * year + r) % 12 = r := by omega
  rw [monthStart, hyear, hmonth]

theorem monthLength_eq (year : Int) {r : Int} (h0 : 0 ≤ r) (h12 : r < 12) :
    monthLength (12 * year + r) = daysInMonth year (r + 1) := by
  have hyear : (12 * year + r) / 12 = year := by omega
  have hmonth : (12 * year + r) % 12 = r := by omega
  rw [monthLength, hyear, hmonth]

/-- A month ends where the next one starts. -/
theorem monthStart_succ (k : Int) : monthStart (k + 1) = monthStart k + monthLength k := by
  obtain ⟨year, r, rfl, h0, h12⟩ : ∃ year r, k = 12 * year + r ∧ 0 ≤ r ∧ r < 12 :=
    ⟨k / 12, k % 12, by omega, by omega, by omega⟩
  rw [monthLength_eq year h0 h12, monthStart_eq_toDay year h0 h12]
  by_cases hlast : r = 11
  · -- behind December stands January of the next year
    have hnext : 12 * year + r + 1 = 12 * (year + 1) + 0 := by omega
    rw [hnext, monthStart_eq_toDay (year + 1) (by omega) (by omega), hlast]
    simp [toDay, daysInMonth]
    omega
  · rw [add_assoc, monthStart_eq_toDay year (by omega) (by omega)]
    interval_cases r <;> simp [toDay, daysInMonth, isLeap_iff] <;> omega

theorem monthLength_pos (k : Int) : 0 < monthLength k := by
  have h0 : 0 ≤ k % 12 := by omega
  have h12 : k % 12 < 12 := by omega
  rw [monthLength, daysInMonth]
  generalize k % 12 = r at h0 h12
  interval_cases r <;> simp
  -- February has some days in either kind of year
  split <;> simp

theorem monthStart_lt_monthStart {k l : Int} (h : k < l) : monthStart k < monthStart l := by
  refine strictMono_int_of_lt_succ (fun k => ?_) h
  have hsucc := monthStart_succ k
  have hpos := monthLength_pos k
  omega

theorem monthStart_le_monthStart {k l : Int} (h : k ≤ l) : monthStart k ≤ monthStart l := by
  rcases h.eq_or_lt with rfl | hlt
  · exact le_rfl
  · exact (monthStart_lt_monthStart hlt).le

/-- Months start arbitrarily late. -/
theorem exists_lt_monthStart (n : Int) : ∃ k, 0 ≤ k ∧ n < monthStart k := by
  -- each month is at least one day later than the one before
  have hgrows : ∀ k : Nat, monthStart 0 + k ≤ monthStart k := by
    intro k
    induction k with
    | zero => simp
    | succ k ih =>
      have hlt := monthStart_lt_monthStart (Int.lt_succ (k : Int))
      push_cast
      omega
  refine ⟨((n - monthStart 0).toNat + 1 : Nat), by omega, ?_⟩
  have h := hgrows ((n - monthStart 0).toNat + 1)
  push_cast at h ⊢
  omega

/-! ### Dates and the days that they stand for -/

namespace IsValid

variable {d e : Date}

/-- A date lies behind the first of its month as its day says. -/
theorem toDay_eq (hd : d.IsValid) : d.toDay = monthStart d.monthNumber + (d.day - 1) := by
  have h1 := hd.one_le_month
  have h12 := hd.month_le
  rw [monthNumber, monthStart_eq_toDay d.year (by omega) (by omega)]
  simp only [toDay, Int.sub_add_cancel]
  omega

theorem monthLength_monthNumber (hd : d.IsValid) :
    monthLength d.monthNumber = daysInMonth d.year d.month := by
  have h1 := hd.one_le_month
  have h12 := hd.month_le
  rw [monthNumber, Date.monthLength_eq d.year (by omega) (by omega), Int.sub_add_cancel]

theorem monthStart_le_toDay (hd : d.IsValid) : monthStart d.monthNumber ≤ d.toDay := by
  have heq := hd.toDay_eq
  have hday := hd.one_le_day
  omega

theorem toDay_lt_monthStart (hd : d.IsValid) : d.toDay < monthStart (d.monthNumber + 1) := by
  have heq := hd.toDay_eq
  have hday := hd.day_le
  rw [monthStart_succ, hd.monthLength_monthNumber]
  omega

/-- A month has started by a date if it is the month of this date or an earlier one. -/
theorem monthStart_le_toDay_iff (hd : d.IsValid) {k : Int} :
    monthStart k ≤ d.toDay ↔ k ≤ d.monthNumber := by
  constructor
  · intro h
    by_contra hlater
    have hnext : monthStart (d.monthNumber + 1) ≤ monthStart k :=
      monthStart_le_monthStart (by omega)
    have hlt := hd.toDay_lt_monthStart
    omega
  · intro h
    exact (monthStart_le_monthStart h).trans hd.monthStart_le_toDay

theorem ext_monthNumber (hd : d.IsValid) (he : e.IsValid) (hmonth : d.monthNumber = e.monthNumber)
    (hday : d.day = e.day) : d = e := by
  obtain ⟨year, month, day⟩ := d
  obtain ⟨year', month', day'⟩ := e
  have h1 := hd.one_le_month
  have h12 := hd.month_le
  have h1' := he.one_le_month
  have h12' := he.month_le
  simp only [monthNumber] at *
  simp only [Date.mk.injEq]
  omega

/-- Different dates stand for different days. -/
theorem eq_of_toDay_eq (hd : d.IsValid) (he : e.IsValid) (h : d.toDay = e.toDay) : d = e := by
  have hmonth : d.monthNumber = e.monthNumber :=
    le_antisymm (he.monthStart_le_toDay_iff.mp (h ▸ hd.monthStart_le_toDay))
      (hd.monthStart_le_toDay_iff.mp (h ▸ he.monthStart_le_toDay))
  refine hd.ext_monthNumber he hmonth ?_
  have hday := hd.toDay_eq
  have hday' := he.toDay_eq
  rw [hmonth] at hday
  omega

end IsValid

theorem isValid_first (year : Int) {month : Int} (h1 : 1 ≤ month) (h12 : month ≤ 12) :
    IsValid ⟨year, month, 1⟩ := by
  have hpos := monthLength_pos (12 * year + (month - 1))
  rw [monthLength_eq year (by omega) (by omega), Int.sub_add_cancel] at hpos
  exact ⟨h1, h12, le_refl 1, hpos⟩

theorem IsValid.next {d : Date} (hd : d.IsValid) : d.next.IsValid := by
  have h1 := hd.one_le_month
  have h12 := hd.month_le
  have hday := hd.one_le_day
  rw [Date.next]
  split
  case isTrue hlt => exact ⟨h1, h12, by simp only; omega, by simp only; omega⟩
  case isFalse =>
    split
    · exact isValid_first d.year (by omega) (by omega)
    · exact isValid_first (d.year + 1) (by omega) (by omega)

/-- The day after a date has the next number. -/
theorem IsValid.toDay_next {d : Date} (hd : d.IsValid) : d.next.toDay = d.toDay + 1 := by
  have h12 := hd.month_le
  have hle := hd.day_le
  have hlength := hd.monthLength_monthNumber
  have hsucc := monthStart_succ d.monthNumber
  rw [hd.toDay_eq, hd.next.toDay_eq, Date.next]
  split
  case isTrue hlt =>
    simp only [monthNumber]
    omega
  case isFalse hlast =>
    -- the last day of a month is followed by the first day of the next month in the row
    have hfirst : ∀ year month, monthNumber ⟨year, month, 1⟩ = d.monthNumber + 1 →
        monthStart (monthNumber ⟨year, month, 1⟩) + (1 - 1) =
          monthStart d.monthNumber + (d.day - 1) + 1 := by
      intro year month hmonth
      rw [hmonth]
      omega
    split
    · exact hfirst d.year (d.month + 1) (by simp only [monthNumber]; omega)
    · exact hfirst (d.year + 1) 1 (by simp only [monthNumber]; omega)

/-! ### The date of a day -/

/-- In which year of an era a day of the era lies, the years being counted from March. -/
theorem yearOfEra_bounds {day year : Int} (h0 : 0 ≤ day) (h1 : day < 146097)
    (hyear : year = (day - day / 1460 + day / 36524 - day / 146096) / 365) :
    0 ≤ year ∧ year < 400 ∧ 365 * year + year / 4 - year / 100 ≤ day ∧
      day ≤ 365 * year + year / 4 - year / 100 + if isLeap (year + 1) then 365 else 364 := by
  simp only [isLeap_iff]
  by_cases hlast : day = 146096
  · omega
  · -- in a century, four years are 1460 days, and one more at the end in all but the last
    have hera : day / 146096 = 0 := by omega
    have hcentury : day / 36524 = 0 ∨ day / 36524 = 1 ∨ day / 36524 = 2 ∨ day / 36524 = 3 := by
      omega
    obtain ⟨q, hq⟩ : ∃ q, q = year - 4 * (day / 1460) := ⟨_, rfl⟩
    have hquarter : q = -1 ∨ q = 0 ∨ q = 1 ∨ q = 2 ∨ q = 3 := by omega
    rcases hcentury with hc | hc | hc | hc <;> rw [hera, hc] at hyear <;>
      rcases hquarter with rfl | rfl | rfl | rfl | rfl <;> omega

/-- The date of a day of a year that is counted from March. -/
def ofMarch (era year day : Int) : Date :=
  let month := (5 * day + 2) / 153
  let dayOfMonth := day - (153 * month + 2) / 5 + 1
  if month < 10 then ⟨400 * era + year, month + 3, dayOfMonth⟩
  else ⟨400 * era + year + 1, month - 9, dayOfMonth⟩

/-- A day of a year that is counted from March has a date, and stands where it should. -/
theorem ofMarch_spec (era : Int) {year day : Int} (hyear0 : 0 ≤ year) (hyear : year < 400)
    (h0 : 0 ≤ day) (h1 : day ≤ if isLeap (year + 1) then 365 else 364) :
    (ofMarch era year day).IsValid ∧ (ofMarch era year day).toDay =
      146097 * era + 365 * year + year / 4 - year / 100 + day - 719468 := by
  have hbound : day ≤ 365 := h1.trans (by split <;> omega)
  have hleap : isLeap (400 * era + year + 1) = isLeap (year + 1) := by
    rw [Bool.eq_iff_iff, isLeap_iff, isLeap_iff]
    omega
  obtain ⟨month, hmonth⟩ : ∃ month, month = (5 * day + 2) / 153 := ⟨_, rfl⟩
  have hmonth0 : 0 ≤ month := by omega
  have hmonth11 : month ≤ 11 := by omega
  rw [ofMarch, ← hmonth]
  refine ⟨⟨?_, ?_, ?_, ?_⟩, ?_⟩
  · split <;> simp only <;> omega
  · split <;> simp only <;> omega
  · split <;> simp only <;> omega
  · -- the year ends with February, whose last day there is in leap years only
    cases hcase : isLeap (year + 1) <;> rw [hcase] at h1 hleap <;>
      simp only [Bool.false_eq_true, if_true, if_false] at h1 <;>
      interval_cases month <;> simp [daysInMonth, hleap] <;> omega
  · interval_cases month <;> simp [toDay] <;> omega

theorem ofDay_spec (n : Int) : (ofDay n).IsValid ∧ (ofDay n).toDay = n := by
  obtain ⟨era, hera⟩ : ∃ era, era = (n + 719468) / 146097 := ⟨_, rfl⟩
  obtain ⟨day, hday⟩ : ∃ day, day = n + 719468 - 146097 * era := ⟨_, rfl⟩
  obtain ⟨year, hyear⟩ : ∃ year, year = (day - day / 1460 + day / 36524 - day / 146096) / 365 :=
    ⟨_, rfl⟩
  obtain ⟨hyear0, hyear400, hle, hlt⟩ := yearOfEra_bounds (by omega) (by omega) hyear
  have hofDay : ofDay n = ofMarch era year (day - (365 * year + year / 4 - year / 100)) := by
    rw [hyear, hday, hera]
    rfl
  have hfirst : 0 ≤ day - (365 * year + year / 4 - year / 100) := by omega
  obtain ⟨hvalid, htoDay⟩ := ofMarch_spec era hyear0 hyear400 hfirst (by omega)
  rw [hofDay]
  exact ⟨hvalid, htoDay.trans (by omega)⟩

theorem isValid_ofDay (n : Int) : (ofDay n).IsValid := (ofDay_spec n).1

/-- **The date of a day stands for the day.** -/
@[simp] theorem toDay_ofDay (n : Int) : (ofDay n).toDay = n := (ofDay_spec n).2

/-- **A date is the date of the day that it stands for.** -/
theorem IsValid.ofDay_toDay {d : Date} (hd : d.IsValid) : ofDay d.toDay = d :=
  (isValid_ofDay _).eq_of_toDay_eq hd (toDay_ofDay _)

/-- The next day has the next date. -/
theorem ofDay_succ (n : Int) : ofDay (n + 1) = (ofDay n).next := by
  have h := (isValid_ofDay n).next.ofDay_toDay
  rwa [(isValid_ofDay n).toDay_next, toDay_ofDay] at h

/-- **The date of a day is found by counting** from 1970-01-01 in either direction. -/
theorem numbered_iff {n : Int} {d : Date} : Numbered n d ↔ d = ofDay n := by
  constructor
  · intro h
    induction h with
    | epoch => rfl
    | after _ ih => rw [ih, ofDay_succ]
    | @before n d hd _ ih =>
      have hday : d.toDay + 1 = n + 1 := by rw [← hd.toDay_next, ih, toDay_ofDay]
      obtain rfl : d.toDay = n := by omega
      exact hd.ofDay_toDay.symm
  · rintro rfl
    induction n using Int.induction_on with
    | zero => exact .epoch
    | succ n ih => exact ofDay_succ n ▸ ih.after
    | pred n ih =>
      refine .before (isValid_ofDay _) ?_
      rw [← ofDay_succ, Int.sub_add_cancel]
      exact ih

example : [-1, 11016, 47540].map ofDay = [⟨1969, 12, 31⟩, ⟨2000, 2, 29⟩, ⟨2100, 2, 28⟩] := by
  decide

/-- **A month has started by a day** if it is the month of this day or an earlier one. -/
theorem monthStart_le_iff {k n : Int} : monthStart k ≤ n ↔ k ≤ (ofDay n).monthNumber := by
  have h := (isValid_ofDay n).monthStart_le_toDay_iff (k := k)
  rwa [toDay_ofDay] at h

/-- A day is the first of a month if a month starts on it. -/
theorem day_ofDay_eq_one_iff {n : Int} :
    (ofDay n).day = 1 ↔ n = monthStart (ofDay n).monthNumber := by
  have h := (isValid_ofDay n).toDay_eq
  rw [toDay_ofDay] at h
  omega

theorem monthNumber_monthStart (k : Int) : (ofDay (monthStart k)).monthNumber = k := by
  have h0 : 0 ≤ k % 12 := by omega
  have h12 : k % 12 < 12 := by omega
  rw [monthStart, (isValid_first (k / 12) (by omega) (by omega)).ofDay_toDay]
  simp only [monthNumber]
  omega

end Date

end DocSearch
