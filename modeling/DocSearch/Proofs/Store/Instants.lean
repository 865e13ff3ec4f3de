import DocSearch.Mapping
import DocSearch.Proofs.Decimal.Exact
import DocSearch.Proofs.Steps
import DocSearch.Proofs.Time.Period
import DocSearch.Store.Document
import Mathlib.Tactic.Linarith

/-!
# Numbers in their buckets

A field that is declared as a number of milliseconds may hold any number.  It is cut off
towards zero before it is truncated to the start of its period, so the bucket is that of
the integer next to it in the direction of zero.  For a number that is not negative this
integer lies in the same period.  A negative fraction is moved up, and if a period starts
at the integer above it, the number is counted in the period behind its own.

## Main definitions

* `Cell.exactValue?` — the number that a cell holds.

## Main results

* `Document.bucketKey_eq_ok_iff` — the bucket key of a number.
* `Document.bucket_contains` — **which numbers lie in their buckets**.
-/

namespace DocSearch

open Steps

/-! ### Supported instants and 64 bits -/

namespace Instant

variable {m n : Int}

/-- The ends of 64 bits are not supported. -/
theorem lt_earliest_and_latest_lt : -2 ^ 63 < earliest ∧ latest < 2 ^ 63 - 1 := by
  decide +kernel

/-- Supported instants have 64 bits. -/
theorem IsSupported.bounds (h : IsSupported m) : -2 ^ 63 ≤ m ∧ m < 2 ^ 63 := by
  have hrange := Interval.inRange_iff.mpr h
  simp only [inRange, Bool.and_eq_true, decide_eq_true_eq] at hrange
  obtain ⟨hearliest, hlatest⟩ := lt_earliest_and_latest_lt
  omega

/-- What is beyond 64 bits is as little supported as the end of them. -/
theorem inRange_clampInt64 (n : Int) : inRange (clampInt64 n).toInt = inRange n := by
  obtain ⟨hearliest, hlatest⟩ := lt_earliest_and_latest_lt
  rw [toInt_clampInt64, Bool.eq_iff_iff]
  simp only [inRange, Bool.and_eq_true, decide_eq_true_eq]
  omega

theorem clampInt64_of_isSupported (h : IsSupported n) : (clampInt64 n).toInt = n := by
  have hbounds := h.bounds
  rw [toInt_clampInt64]
  omega

end Instant

theorem Interval.floor?_clampInt64 (i : Interval) (n : Int) :
    i.floor? (clampInt64 n).toInt = i.floor? n := by
  by_cases h : Instant.IsSupported n
  · rw [Instant.clampInt64_of_isSupported h]
  · have hclamped : ¬ Instant.IsSupported (clampInt64 n).toInt := by
      rwa [← inRange_iff, Instant.inRange_clampInt64, inRange_iff]
    rw [floor?_eq_none_iff.mpr (.inl h), floor?_eq_none_iff.mpr (.inl hclamped)]

/-! ### Cutting off and periods -/

namespace Interval

variable {i : Interval} {q : ℚ} {next : Int}

theorem start_towardZero_sub_one_lt (i : Interval) (q : ℚ) :
    (i.start (towardZero q) : ℚ) - 1 < q := by
  have hle : (i.start (towardZero q) : ℚ) ≤ towardZero q := by exact_mod_cast i.start_le _
  have hcut := towardZero_sub_one_lt q
  linarith

/-- A number is before the next period if the integer that it is cut off to is. -/
theorem lt_of_isLeast (h : IsLeast {t | i.IsStart t ∧ i.start (towardZero q) < t} next) :
    q < next := by
  have hlt : towardZero q < next := by
    by_contra hle
    have hbehind := (le_start_iff h.1.1).mpr (not_lt.mp hle)
    exact hbehind.not_gt h.1.2
  have hnext : (towardZero q : ℚ) + 1 ≤ next := by exact_mod_cast hlt
  exact (lt_towardZero_add_one q).trans_le hnext

/-- The start of the period is behind a number only if the number is moved up to it. -/
theorem start_towardZero_le_iff :
    (i.start (towardZero q) : ℚ) ≤ q ↔ ¬ (q < 0 ∧ q < ⌈q⌉ ∧ i.IsStart ⌈q⌉) := by
  constructor
  · rintro hle ⟨hneg, hfraction, hceil⟩
    rw [towardZero_of_nonpos hneg.le, start_of_isStart hceil] at hle
    exact hle.not_gt hfraction
  · intro hexcept
    by_contra hbehind
    have hle : i.start (towardZero q) ≤ towardZero q := i.start_le _
    have hcut : q < towardZero q := (not_le.mp hbehind).trans_le (by exact_mod_cast hle)
    obtain ⟨hneg, hfraction⟩ := lt_towardZero_iff.mp hcut
    -- the start is not the integer itself, so it is before the number as well
    have hne : i.start (towardZero q) ≠ towardZero q := by
      intro heq
      have hstart := heq ▸ i.isStart_start (towardZero q)
      exact hexcept ⟨hneg, hfraction, towardZero_of_nonpos hneg.le ▸ hstart⟩
    have hpred : (i.start (towardZero q) : ℚ) ≤ towardZero q - 1 := by
      exact_mod_cast Int.le_sub_one_of_lt (lt_of_le_of_ne hle hne)
    exact hbehind (hpred.trans (towardZero_sub_one_lt q).le)

end Interval

/-! ### The bucket key of a number -/

/-- The number that a cell holds. -/
def Cell.exactValue? : Cell → Option ℚ
  | integer n => some n.toInt
  | real x => DocSearch.exactValue? x
  | null | text _ => none

namespace ScalarFunction

/-- The start of the period of a 64-bit integer. -/
theorem truncate_eq_ok_iff {i : Interval} {n k : Int64} :
    truncate i (.cell (.integer n)) = .ok (.integer k) ↔ i.floor? n.toInt = some k.toInt := by
  rw [truncate.eq_2]
  split
  case h_1 start hstart =>
    have hbounds := (Interval.floor?_eq_some_iff.mp hstart).2.1.bounds
    have hto : (Int64.ofInt start).toInt = start :=
      Int64.toInt_ofInt_of_le hbounds.1 hbounds.2
    simp [hstart, ← Int64.toInt_inj, hto]
  case h_2 hnone => simp [hnone]

/-- A number as milliseconds is cut off towards zero, and is within 64 bits. -/
theorem toEpochMillis_of_toNumeric {a : Argument} {c : Cell} {q : ℚ} (hc : toNumeric a = .ok c)
    (hq : c.exactValue? = some q) :
    toEpochMillis a = .ok (.integer (clampInt64 (towardZero q))) := by
  rw [toEpochMillis, hc]
  cases c with
  | integer n =>
    obtain rfl := Option.some.inj hq
    rw [towardZero_intCast, clampInt64_toInt]
    rfl
  | real x =>
    rw [← truncateFloat_eq hq]
    rfl
  | null | text _ => cases hq

end ScalarFunction

namespace Document

variable {d : Document} {field : String} {c : Cell} {q : ℚ} {i : Interval} {k : Int64}

/-- **The bucket key of a number is the start of the period of the number cut off.** -/
theorem bucketKey_eq_ok_iff (hc : d.fieldNumber field = .ok c) (hq : c.exactValue? = some q) :
    d.bucketKey ⟨field, .epochMillis, i⟩ = .ok (.integer k) ↔
      i.floor? (towardZero q) = some k.toInt := by
  obtain ⟨value, hvalue, hnumber⟩ := bind_eq_ok.mp hc
  have hmillis := ScalarFunction.toEpochMillis_of_toNumeric hnumber hq
  rw [← i.floor?_clampInt64, ← ScalarFunction.truncate_eq_ok_iff]
  simp only [bucketKey, fieldInstant, hvalue, Bind.bind, Except.bind, hmillis]

/-- **A number lies in its bucket, unless it is a negative fraction and a period starts at the
integer above it.**  Then it lies before the bucket, by less than a millisecond. -/
theorem bucket_contains {type : FieldType} {source : TimestampSource}
    (htype : type ∈ [FieldType.long, .double]) (hsource : type.timestampSource? = some source)
    (hc : d.fieldNumber field = .ok c) (hq : c.exactValue? = some q)
    (hk : d.bucketKey ⟨field, source, i⟩ = .ok (.integer k)) :
    i.IsStart k.toInt ∧ ∃ next, IsLeast {t | i.IsStart t ∧ k.toInt < t} next ∧
      k.toInt - 1 < q ∧ q < next ∧ (k.toInt ≤ q ↔ ¬ (q < 0 ∧ q < ⌈q⌉ ∧ i.IsStart ⌈q⌉)) := by
  obtain rfl : source = .epochMillis := by
    rcases List.mem_pair.mp htype with rfl | rfl <;> exact (Option.some.inj hsource).symm
  obtain ⟨-, -, hstart⟩ := Interval.floor?_eq_some_iff.mp ((bucketKey_eq_ok_iff hc hq).mp hk)
  obtain ⟨next, hnext⟩ := i.exists_isLeast_start k.toInt
  rw [← hstart] at hnext ⊢
  exact ⟨i.isStart_start _, next, hnext, i.start_towardZero_sub_one_lt q,
    Interval.lt_of_isLeast hnext, i.start_towardZero_le_iff⟩

/-- A fraction of a second before 1970 in its bucket. -/
theorem bucket_contains_negative :
    let d : Document := ⟨"event", "1", .obj [("at", .num (.real (-1.5)))]⟩
    FieldType.double ∈ [FieldType.long, .double] ∧
    FieldType.double.timestampSource? = some .epochMillis ∧
    d.fieldNumber "at" = .ok (.real (-1.5)) ∧ (Cell.real (-1.5)).exactValue? = some (-3 / 2) ∧
    d.bucketKey ⟨"at", .epochMillis, .second⟩ = .ok (.integer (-1000)) ∧
    ∃ next, IsLeast {t | Interval.second.IsStart t ∧ -1000 < t} next ∧
      (-1000 : ℚ) - 1 < -3 / 2 ∧ (-3 / 2 : ℚ) < next ∧ (-1000 : ℚ) ≤ -3 / 2 := by
  intro d
  have hnumber : d.fieldNumber "at" = .ok (.real (-1.5)) := by decide +kernel
  have hexact : (Cell.real (-1.5)).exactValue? = some (-3 / 2) := by decide +kernel
  have hkey : d.bucketKey ⟨"at", .epochMillis, .second⟩ = .ok (.integer (-1000)) := by
    decide +kernel
  have htype : FieldType.double ∈ [FieldType.long, .double] := by decide
  obtain ⟨-, next, hnext, hbefore, hlt, hle⟩ := bucket_contains htype rfl hnumber hexact hkey
  refine ⟨htype, rfl, hnumber, hexact, hkey, next, hnext, hbefore, hlt, hle.mpr ?_⟩
  -- no second starts at -1
  have hceil : ⌈(-3 / 2 : ℚ)⌉ = -1 := by decide +kernel
  rw [hceil]
  rintro ⟨-, -, hstart⟩
  exact (show ¬ (1000 : Int) ∣ -1 by decide) hstart

/-- Half a millisecond before 1970 is counted in the first second of 1970. -/
theorem negative_fraction_before_its_bucket :
    let d : Document := ⟨"event", "1", .obj [("at", .num (.real (-0.5)))]⟩
    d.fieldNumber "at" = .ok (.real (-0.5)) ∧ (Cell.real (-0.5)).exactValue? = some (-1 / 2) ∧
    d.bucketKey ⟨"at", .epochMillis, .second⟩ = .ok (.integer 0) ∧ ¬ (0 : ℚ) ≤ -1 / 2 := by
  decide +kernel

end Document

end DocSearch
