import DocSearch.Proofs.Time.Calendar
import DocSearch.Time.Interval
import Mathlib.Data.Int.LeastGreatest
import Mathlib.Data.List.Chain
import Mathlib.Order.Bounds.Basic

/-!
# Periods of the calendar

An instant is truncated to the start of the period that it lies in: the greatest start
that is not behind it.  Where periods start is said by the calendar and not by the
formulas, so the result holds for negative years and for instants before 1970 as well.

From this alone it follows that truncating twice changes nothing, that it keeps the order,
that two instants have the same result exactly if no period starts between them, and that
truncating to finer periods first makes no difference where each coarser period starts
with a finer one.

## Main definitions

* `Interval.IsStart` — the instants at which the periods of a unit start.
* `Interval.Finer` — units whose periods divide those of another.
* `Instant.IsSupported` — the instants whose year is supported.

## Main results

* `Interval.isGreatest_start` — the start of the period is the greatest one.
* `Interval.exists_isLeast_start` — there is a next start after every instant.
* `Interval.floor?_calendar` — **truncating is the floor of the calendar**.
-/

namespace DocSearch

namespace Instant

/-- The years that are supported are those from -262143 to 262142. -/
def IsSupported (millis : Int) : Prop :=
  ∃ d, Date.Numbered (day millis) d ∧ Date.minYear ≤ d.year ∧ d.year ≤ Date.maxYear

end Instant

namespace Interval

open Date

/-! ### Where periods start -/

/-- Whether a period that is made of days starts on a day.  The fifth of January 1970 was
a Monday. -/
def StartsOn : Interval → Int → Prop
  | week, n => 7 ∣ n - 4
  | month, n => ∃ d, Numbered n d ∧ d.day = 1
  | quarter, n => ∃ d, Numbered n d ∧ d.day = 1 ∧ d.month ∈ [1, 4, 7, 10]
  | year, n => ∃ d, Numbered n d ∧ d.day = 1 ∧ d.month = 1
  | _, _ => True

/-- Whether a period starts at an instant: at a whole second, minute or hour, or at the
midnight before a day on which it starts. -/
def IsStart : Interval → Int → Prop
  | second, s => 1000 ∣ s
  | minute, s => 60000 ∣ s
  | hour, s => 3600000 ∣ s
  | i, s => ∃ n, s = n * Instant.dayLength ∧ i.StartsOn n

/-- The units each of whose periods is made of periods of the unit before it. -/
def chains : List (List Interval) :=
  [[second, minute, hour, day, month, quarter, year], [second, minute, hour, day, week]]

/-- Whether the periods of a unit divide those of another. -/
def Finer (fine coarse : Interval) : Prop := ∃ chain ∈ chains, [fine, coarse].Sublist chain

instance (fine coarse : Interval) : Decidable (Finer fine coarse) :=
  inferInstanceAs (Decidable (∃ chain ∈ chains, [fine, coarse].Sublist chain))

/-! ### Periods of months -/

/-- A day is the first of a month of some kind if one starts on it. -/
theorem numbered_first_iff {P : Date → Prop} {L n : Int}
    (hP : ∀ d, d.IsValid → (P d ↔ L ∣ d.monthNumber)) :
    (∃ d, Numbered n d ∧ d.day = 1 ∧ P d) ↔ ∃ k, n = monthStart (L * k) := by
  constructor
  · rintro ⟨d, hd, hday, hp⟩
    obtain rfl := numbered_iff.mp hd
    obtain ⟨k, hk⟩ := (hP _ (isValid_ofDay n)).mp hp
    exact ⟨k, hk ▸ day_ofDay_eq_one_iff.mp hday⟩
  · rintro ⟨k, rfl⟩
    refine ⟨_, numbered_iff.mpr rfl, ?_, (hP _ (isValid_ofDay _)).mpr ?_⟩
    · rw [day_ofDay_eq_one_iff, monthNumber_monthStart]
    · rw [monthNumber_monthStart]
      exact dvd_mul_right L k

/-- How many months the periods of a unit have, if they are made of months. -/
def months? : Interval → Option Int
  | month => some 1
  | quarter => some 3
  | year => some 12
  | _ => none

theorem startsOn_iff_of_months? {i : Interval} {L n : Int} (hL : i.months? = some L) :
    i.StartsOn n ↔ ∃ k, n = monthStart (L * k) := by
  cases i with
  | month =>
    obtain rfl := Option.some.inj hL
    rw [← numbered_first_iff (P := fun _ => True) (fun d _ => by simp)]
    simp [StartsOn]
  | quarter =>
    obtain rfl := Option.some.inj hL
    refine numbered_first_iff fun d hd => ?_
    have h1 := hd.one_le_month
    have h12 := hd.month_le
    simp only [monthNumber, List.mem_cons, List.not_mem_nil, or_false]
    omega
  | year =>
    obtain rfl := Option.some.inj hL
    refine numbered_first_iff fun d hd => ?_
    have h1 := hd.one_le_month
    have h12 := hd.month_le
    simp only [monthNumber]
    omega
  | week | day | hour | minute | second => cases hL

/-- The formula for the start of a period of months. -/
theorem start_eq_of_months? {i : Interval} {L : Int} (hL : i.months? = some L) (millis : Int) :
    i.start millis = monthStart (L * ((ofDay (Instant.day millis)).monthNumber / L)) *
      Instant.dayLength := by
  have hd := isValid_ofDay (Instant.day millis)
  generalize hdate : ofDay (Instant.day millis) = d at hd
  have h1 := hd.one_le_month
  have h12 := hd.month_le
  -- the month that the formula names, counted in a row
  have hfirst : ∀ m : Int, 1 ≤ m → m ≤ 12 → 12 * d.year + (m - 1) = L * (d.monthNumber / L) →
      toDay ⟨d.year, m, 1⟩ = monthStart (L * (d.monthNumber / L)) := by
    intro m hm1 hm12 hm
    rw [← hm, monthStart_eq_toDay d.year (by omega) (by omega), Int.sub_add_cancel]
  simp only [monthNumber] at hfirst ⊢
  cases i with
  | month =>
    obtain rfl := Option.some.inj hL
    simp only [start, hdate]
    rw [hfirst d.month h1 h12 (by omega)]
  | quarter =>
    obtain rfl := Option.some.inj hL
    simp only [start, hdate]
    rw [hfirst ((d.month - 1) / 3 * 3 + 1) (by omega) (by omega) (by omega)]
  | year =>
    obtain rfl := Option.some.inj hL
    simp only [start, hdate]
    rw [hfirst 1 (by omega) (by omega) (by omega)]
  | week | day | hour | minute | second => cases hL

/-! ### The greatest start -/

theorem dayLength_pos : 0 < Instant.dayLength := by decide

/-- The start of a period of days is the midnight before the greatest day that is a start. -/
theorem isGreatest_midnight {P : Int → Prop} {n millis : Int}
    (h : IsGreatest {a | P a ∧ a ≤ Instant.day millis} n) :
    IsGreatest {s | (∃ a, s = a * Instant.dayLength ∧ P a) ∧ s ≤ millis}
      (n * Instant.dayLength) := by
  obtain ⟨⟨hn, hle⟩, hgreatest⟩ := h
  refine ⟨⟨⟨n, rfl, hn⟩, (Int.le_ediv_iff_mul_le dayLength_pos).mp hle⟩, ?_⟩
  rintro _ ⟨⟨a, rfl, ha⟩, hlea⟩
  have hday := hgreatest ⟨ha, (Int.le_ediv_iff_mul_le dayLength_pos).mpr hlea⟩
  exact Int.mul_le_mul_of_nonneg_right hday dayLength_pos.le

theorem isGreatest_multiple {u : Int} (hu : 0 < u) (n : Int) :
    IsGreatest {s | u ∣ s ∧ s ≤ n} (n / u * u) := by
  refine ⟨⟨dvd_mul_left u _, Int.ediv_mul_le n hu.ne'⟩, ?_⟩
  rintro _ ⟨⟨k, rfl⟩, hle⟩
  rw [Int.mul_comm u k] at hle ⊢
  exact Int.mul_le_mul_of_nonneg_right ((Int.le_ediv_iff_mul_le hu).mpr hle) hu.le

/-- The greatest first day of a period of months. -/
theorem isGreatest_monthStart {L : Int} (hL : 0 < L) (n : Int) :
    IsGreatest {a | (∃ k, a = monthStart (L * k)) ∧ a ≤ n}
      (monthStart (L * ((ofDay n).monthNumber / L))) := by
  refine ⟨⟨⟨_, rfl⟩, monthStart_le_iff.mpr (Int.mul_ediv_self_le hL.ne')⟩, ?_⟩
  rintro _ ⟨⟨k, rfl⟩, hle⟩
  have hk : k ≤ (ofDay n).monthNumber / L := by
    rw [Int.le_ediv_iff_mul_le hL, Int.mul_comm]
    exact monthStart_le_iff.mp hle
  exact monthStart_le_monthStart (Int.mul_le_mul_of_nonneg_left hk hL.le)

theorem isGreatest_start_of_months? {i : Interval} {L : Int} (hi : i.months? = some L)
    (hpos : 0 < L) (millis : Int) :
    IsGreatest {s | (∃ n, s = n * Instant.dayLength ∧ i.StartsOn n) ∧ s ≤ millis}
      (i.start millis) := by
  rw [start_eq_of_months? hi]
  simp only [startsOn_iff_of_months? hi]
  exact isGreatest_midnight (isGreatest_monthStart hpos _)

/-- **The start of the period of an instant is the greatest start that is not behind it.** -/
theorem isGreatest_start (i : Interval) (millis : Int) :
    IsGreatest {s | i.IsStart s ∧ s ≤ millis} (i.start millis) := by
  cases i with
  | second => exact isGreatest_multiple (by decide) millis
  | minute => exact isGreatest_multiple (by decide) millis
  | hour => exact isGreatest_multiple (by decide) millis
  | day =>
    refine isGreatest_midnight ⟨⟨trivial, le_refl _⟩, ?_⟩
    exact fun a ha => ha.2
  | week =>
    refine isGreatest_midnight (P := StartsOn week) ⟨⟨?_, by omega⟩, ?_⟩
    · simp only [StartsOn]
      omega
    · rintro a ⟨ha, hle⟩
      simp only [StartsOn] at ha
      omega
  | month => exact isGreatest_start_of_months? (L := 1) rfl (by decide) millis
  | quarter => exact isGreatest_start_of_months? (L := 3) rfl (by decide) millis
  | year => exact isGreatest_start_of_months? (L := 12) rfl (by decide) millis

variable {i : Interval} {m n s t : Int}

theorem isStart_start (i : Interval) (m : Int) : i.IsStart (i.start m) := (i.isGreatest_start m).1.1

theorem start_le (i : Interval) (m : Int) : i.start m ≤ m := (i.isGreatest_start m).1.2

theorem le_start_iff (ht : i.IsStart t) : t ≤ i.start m ↔ t ≤ m :=
  ⟨fun h => h.trans (i.start_le m), fun h => (i.isGreatest_start m).2 ⟨ht, h⟩⟩

theorem start_of_isStart (hs : i.IsStart s) : i.start s = s :=
  le_antisymm (i.start_le s) ((le_start_iff hs).mpr le_rfl)

theorem start_mono (h : m ≤ n) : i.start m ≤ i.start n :=
  (le_start_iff (i.isStart_start m)).mpr ((i.start_le m).trans h)

/-- Two instants have the same start exactly if the same periods have started by them. -/
theorem start_eq_start_iff :
    i.start m = i.start n ↔ ∀ t, i.IsStart t → (t ≤ m ↔ t ≤ n) := by
  constructor
  · intro h t ht
    rw [← le_start_iff ht, h, le_start_iff ht]
  · intro h
    refine le_antisymm ?_ ?_
    · exact (le_start_iff (i.isStart_start m)).mpr ((h _ (i.isStart_start m)).mp (i.start_le m))
    · exact (le_start_iff (i.isStart_start n)).mpr ((h _ (i.isStart_start n)).mpr (i.start_le n))

/-! ### Finer and coarser periods -/

/-- Each coarser period starts with a finer one. -/
def Divides (fine coarse : Interval) : Prop := ∀ s, coarse.IsStart s → fine.IsStart s

instance : Trans Divides Divides Divides := ⟨fun h h' s hs => h s (h' s hs)⟩

theorem divides_of_startsOn {fine coarse : Interval}
    (hfine : ∀ s, fine.IsStart s ↔ ∃ n, s = n * Instant.dayLength ∧ fine.StartsOn n)
    (hcoarse : ∀ s, coarse.IsStart s ↔ ∃ n, s = n * Instant.dayLength ∧ coarse.StartsOn n)
    (h : ∀ n, coarse.StartsOn n → fine.StartsOn n) : Divides fine coarse := by
  intro s hs
  obtain ⟨n, hn, hstart⟩ := (hcoarse s).mp hs
  exact (hfine s).mpr ⟨n, hn, h n hstart⟩

/-- In each of the chains a period starts with one of the unit before. -/
theorem isChain_divides : ∀ chain ∈ chains, chain.IsChain Divides := by
  have hminute : Divides second minute := fun s hs => Dvd.dvd.trans (by decide) hs
  have hhour : Divides minute hour := fun s hs => Dvd.dvd.trans (by decide) hs
  have hday : Divides hour day := by
    rintro _ ⟨n, rfl, -⟩
    exact Dvd.dvd.mul_left (by decide) n
  have hweek : Divides day week :=
    divides_of_startsOn (fun _ => Iff.rfl) (fun _ => Iff.rfl) fun _ _ => trivial
  have hmonth : Divides day month :=
    divides_of_startsOn (fun _ => Iff.rfl) (fun _ => Iff.rfl) fun _ _ => trivial
  have hquarter : Divides month quarter :=
    divides_of_startsOn (fun _ => Iff.rfl) (fun _ => Iff.rfl) fun _ ⟨d, hd, hday, _⟩ =>
      ⟨d, hd, hday⟩
  have hyear : Divides quarter year :=
    divides_of_startsOn (fun _ => Iff.rfl) (fun _ => Iff.rfl) fun _ ⟨d, hd, hday, hmonth⟩ =>
      ⟨d, hd, hday, by simp [hmonth]⟩
  intro chain hchain
  simp only [chains, List.mem_cons, List.not_mem_nil, or_false] at hchain
  rcases hchain with rfl | rfl <;> simp [*]

theorem Finer.divides {fine coarse : Interval} (h : Finer fine coarse) : Divides fine coarse := by
  obtain ⟨chain, hchain, hsublist⟩ := h
  have hpairwise := List.isChain_iff_pairwise.mp (isChain_divides chain hchain)
  exact List.pairwise_iff_forall_sublist.mp hpairwise hsublist

/-- **Truncating to finer periods first makes no difference.** -/
theorem Finer.start_start {fine coarse : Interval} (h : Finer fine coarse) (m : Int) :
    coarse.start (fine.start m) = coarse.start m := by
  rw [start_eq_start_iff]
  exact fun t ht => le_start_iff (h.divides t ht)

/-! ### The next start -/

/-- Years start arbitrarily late. -/
theorem exists_year_isStart (m : Int) : ∃ t, year.IsStart t ∧ m < t := by
  obtain ⟨k, hk, hlt⟩ := exists_lt_monthStart (Instant.day m)
  have hlater : monthStart k ≤ monthStart (12 * k) := monthStart_le_monthStart (by omega)
  refine ⟨monthStart (12 * k) * Instant.dayLength, ⟨_, rfl, ?_⟩, ?_⟩
  · exact (startsOn_iff_of_months? rfl).mpr ⟨k, rfl⟩
  · exact (Int.ediv_lt_iff_lt_mul dayLength_pos).mp (hlt.trans_le hlater)

/-- Weeks start arbitrarily late. -/
theorem exists_week_isStart (m : Int) : ∃ t, week.IsStart t ∧ m < t := by
  refine ⟨(7 * (Instant.day m / 7) + 11) * Instant.dayLength, ⟨_, rfl, ?_⟩, ?_⟩
  · simp only [StartsOn]
    omega
  · exact (Int.ediv_lt_iff_lt_mul dayLength_pos).mp (show Instant.day m < _ by omega)

/-- There is a next start after every instant. -/
theorem exists_isLeast_start (i : Interval) (m : Int) :
    ∃ t, IsLeast {t | i.IsStart t ∧ m < t} t := by
  have hsome : ∃ t, i.IsStart t ∧ m < t := by
    obtain ⟨t, ht, hlt⟩ := exists_year_isStart m
    have hkind : i = week ∨ i = year ∨ Finer i year := by cases i <;> decide
    rcases hkind with rfl | rfl | hfiner
    · exact exists_week_isStart m
    · exact ⟨t, ht, hlt⟩
    · exact ⟨t, hfiner.divides t ht, hlt⟩
  obtain ⟨t, ht, hleast⟩ := Int.exists_least_of_bdd ⟨m, fun _ h => h.2.le⟩ hsome
  exact ⟨t, ht, hleast⟩

/-! ### Supported instants -/

theorem monthStart_january (year : Int) : monthStart (12 * year) = toDay ⟨year, 1, 1⟩ := by
  have h := monthStart_eq_toDay year (r := 0) (by decide) (by decide)
  rwa [Int.add_zero] at h

/-- A year has started by an instant if it is the year of the instant or an earlier one. -/
theorem year_le_iff (m year : Int) :
    toDay ⟨year, 1, 1⟩ * Instant.dayLength ≤ m ↔ year ≤ (ofDay (Instant.day m)).year := by
  have hd := isValid_ofDay (Instant.day m)
  have h1 := hd.one_le_month
  have h12 := hd.month_le
  rw [← Int.le_ediv_iff_mul_le dayLength_pos, ← monthStart_january]
  show monthStart (12 * year) ≤ Instant.day m ↔ _
  rw [monthStart_le_iff, monthNumber]
  omega

/-- **The supported instants are those whose year is supported.** -/
theorem inRange_iff : Instant.inRange m = true ↔ Instant.IsSupported m := by
  have hearliest := year_le_iff m minYear
  have hlatest := year_le_iff m (maxYear + 1)
  simp only [Instant.IsSupported, numbered_iff, exists_eq_left, Instant.inRange, Bool.and_eq_true,
    decide_eq_true_eq]
  rw [Instant.earliest, Instant.latest]
  omega

theorem floor?_eq_some_iff :
    i.floor? m = some s ↔ Instant.IsSupported m ∧ Instant.IsSupported s ∧ i.start m = s := by
  rw [floor?]
  simp only [← inRange_iff]
  split
  case isTrue h =>
    rw [Bool.and_eq_true] at h
    constructor
    · intro hs
      cases hs
      exact ⟨h.1, h.2, rfl⟩
    · rintro ⟨-, -, hs⟩
      rw [hs]
  case isFalse h =>
    rw [Bool.and_eq_true] at h
    constructor
    · intro hs
      cases hs
    · rintro ⟨hm, hs, rfl⟩
      exact absurd ⟨hm, hs⟩ h

theorem floor?_eq_none_iff :
    i.floor? m = none ↔ ¬ Instant.IsSupported m ∨ ¬ Instant.IsSupported (i.start m) := by
  rw [← Option.not_isSome_iff_eq_none, Option.isSome_iff_exists]
  simp only [floor?_eq_some_iff]
  have hstart : (∃ s, Instant.IsSupported m ∧ Instant.IsSupported s ∧ i.start m = s) ↔
      Instant.IsSupported m ∧ Instant.IsSupported (i.start m) :=
    ⟨fun ⟨s, hm, hs, h⟩ => ⟨hm, h ▸ hs⟩, fun h => ⟨_, h.1, h.2, rfl⟩⟩
  rw [hstart]
  exact not_and_or

/-- **Truncating is the floor of the calendar.**  Where it gives a result, this is the greatest
start of a period that is not behind the instant, and truncating it again changes nothing.  It
gives none exactly if the instant or this start is not supported.  It keeps the order, and two
instants have the same result exactly if the same periods have started by them.  Truncating to
finer periods first makes no difference. -/
theorem floor?_calendar (i : Interval) (m : Int) :
    (∀ s, i.floor? m = some s →
      IsGreatest {t | i.IsStart t ∧ t ≤ m} s ∧ i.floor? s = some s) ∧
    (∃ s, IsGreatest {t | i.IsStart t ∧ t ≤ m} s ∧
      (i.floor? m = none ↔ ¬ Instant.IsSupported m ∨ ¬ Instant.IsSupported s)) ∧
    (∀ n s t, i.floor? m = some s → i.floor? n = some t →
      (m ≤ n → s ≤ t) ∧ (s = t ↔ ∀ u, i.IsStart u → (u ≤ m ↔ u ≤ n))) ∧
    ∀ coarse s, Finer i coarse → i.floor? m = some s → coarse.floor? s = coarse.floor? m := by
  refine ⟨fun s hs => ?_, ⟨_, i.isGreatest_start m, floor?_eq_none_iff⟩, ?_, ?_⟩
  · obtain ⟨-, hsupported, rfl⟩ := floor?_eq_some_iff.mp hs
    have hagain := start_of_isStart (i.isStart_start m)
    refine ⟨i.isGreatest_start m, floor?_eq_some_iff.mpr ⟨hsupported, ?_, hagain⟩⟩
    exact hagain.symm ▸ hsupported
  · intro n s t hs ht
    obtain ⟨-, -, rfl⟩ := floor?_eq_some_iff.mp hs
    obtain ⟨-, -, rfl⟩ := floor?_eq_some_iff.mp ht
    exact ⟨start_mono, start_eq_start_iff⟩
  · intro coarse s hfiner hs
    obtain ⟨hm, hs, rfl⟩ := floor?_eq_some_iff.mp hs
    rw [floor?, floor?, hfiner.start_start, inRange_iff.mpr hm, inRange_iff.mpr hs]

end Interval

end DocSearch
