import DocSearch.Decimal.Integral
import Mathlib.Data.Rat.Floor

/-!
# The exact value of a double

A finite double is a rational number, and cutting it off rounds this number towards zero:
down if it is not negative, and otherwise up.

## Main definitions

* `Binary.toRat` — the number that a binary fraction is.
* `exactValue?` — the number that a finite double is.
* `towardZero` — the nearest integer in the direction of zero.

## Main results

* `Binary.integral_eq` — the integral part is the floor.
* `truncateFloat_eq` — a finite double is cut off towards zero.
* `toInt_clampInt64` — which integer of 64 bits is the nearest.
-/

namespace DocSearch

/-! ### Binary fractions -/

namespace Binary

/-- The number that a binary fraction is. -/
def toRat (b : Binary) : ℚ := b.mantissa * 2 ^ b.exponent

theorem toRat_nonneg (b : Binary) : 0 ≤ b.toRat := by
  exact mul_nonneg b.mantissa.cast_nonneg (zpow_nonneg zero_le_two _)

/-- The integral part of a binary fraction is the floor of the number. -/
theorem integral_eq (b : Binary) : (b.integral : ℤ) = ⌊b.toRat⌋ := by
  obtain ⟨mantissa, exponent⟩ := b
  unfold integral toRat
  obtain ⟨k, rfl | rfl⟩ := exponent.eq_nat_or_neg
  · have hwhole : (mantissa : ℚ) * 2 ^ (k : ℤ) = ((mantissa * 2 ^ k : ℕ) : ℚ) := by simp
    rw [hwhole, Int.floor_natCast]
    simp
  · have hratio : (mantissa : ℚ) * 2 ^ (-(k : ℤ)) = (mantissa : ℚ) / ((2 ^ k : ℕ) : ℚ) := by
      simp [div_eq_mul_inv]
    rw [hratio, Rat.floor_natCast_div_natCast]
    -- at the exponent zero both branches are the mantissa
    split
    case isTrue h =>
      obtain rfl : k = 0 := by simpa using h
      simp
    case isFalse h => simp

end Binary

/-! ### Cutting off -/

/-- The number that a double is, if it is finite. -/
def exactValue? (x : Float) : Option ℚ :=
  if x.isFinite then
    some (if signBit x then -(Binary.ofFloat x).toRat else (Binary.ofFloat x).toRat)
  else none

/-- The nearest integer to a number in the direction of zero. -/
def towardZero (q : ℚ) : ℤ := if q < 0 then ⌈q⌉ else ⌊q⌋

@[simp] theorem towardZero_intCast (n : ℤ) : towardZero n = n := by simp [towardZero]

theorem towardZero_of_nonneg {q : ℚ} (h : 0 ≤ q) : towardZero q = ⌊q⌋ := if_neg h.not_gt

theorem towardZero_of_nonpos {q : ℚ} (h : q ≤ 0) : towardZero q = ⌈q⌉ := by
  rcases h.lt_or_eq with hneg | rfl
  · exact if_pos hneg
  · simp [towardZero]

theorem lt_towardZero_add_one (q : ℚ) : q < towardZero q + 1 := by
  rcases le_total 0 q with h | h
  · rw [towardZero_of_nonneg h]
    exact Int.lt_floor_add_one q
  · rw [towardZero_of_nonpos h]
    exact (Int.le_ceil q).trans_lt (lt_add_one _)

theorem towardZero_sub_one_lt (q : ℚ) : (towardZero q : ℚ) - 1 < q := by
  rcases le_total 0 q with h | h
  · rw [towardZero_of_nonneg h]
    exact (sub_one_lt _).trans_le (Int.floor_le q)
  · rw [towardZero_of_nonpos h, sub_lt_iff_lt_add]
    exact Int.ceil_lt_add_one q

/-- Only a negative fraction is below the integer that it is cut off to. -/
theorem lt_towardZero_iff {q : ℚ} : q < towardZero q ↔ q < 0 ∧ q < ⌈q⌉ := by
  constructor
  · intro h
    have hneg : q < 0 := by
      by_contra hnonneg
      rw [towardZero_of_nonneg (not_lt.mp hnonneg)] at h
      exact (Int.floor_le q).not_gt h
    exact ⟨hneg, towardZero_of_nonpos hneg.le ▸ h⟩
  · rintro ⟨hneg, h⟩
    rwa [towardZero_of_nonpos hneg.le]

theorem isNaN_of_isFinite {x : Float} (h : x.isFinite) : x.isNaN = false := by
  unfold Float.isFinite Float.Model.isFinite at h
  unfold Float.isNaN Float.Model.isNaN
  generalize x.toModel.unpack = number at h ⊢
  cases number with
  | notANumber => cases h
  | infinity | zero | finite => rfl

/-- **A finite double is cut off towards zero.** -/
theorem truncateFloat_eq {x : Float} {q : ℚ} (h : exactValue? x = some q) :
    truncateFloat x = clampInt64 (towardZero q) := by
  unfold exactValue? at h
  split at h
  case isFalse => cases h
  case isTrue hfinite =>
    have hnonneg := (Binary.ofFloat x).toRat_nonneg
    cases h
    have hnumber : ¬ x.isNaN = true := Bool.eq_false_iff.mp (isNaN_of_isFinite hfinite)
    rw [truncateFloat, if_neg hnumber, Binary.integral_eq]
    simp only
    split
    · rw [towardZero_of_nonpos (neg_nonpos.mpr hnonneg), Int.ceil_neg]
    · rw [towardZero_of_nonneg hnonneg]

/-- The nearest integer of 64 bits is the integer itself or the end that it is beyond. -/
theorem toInt_clampInt64 (n : ℤ) :
    (clampInt64 n).toInt = max (-2 ^ 63) (min n (2 ^ 63 - 1)) := by
  have hmin : Int64.minValue.toInt = -2 ^ 63 := rfl
  have hmax : Int64.maxValue.toInt = 2 ^ 63 - 1 := rfl
  unfold clampInt64
  split
  case isTrue h => omega
  case isFalse h =>
    split
    · omega
    · rw [Int64.toInt_ofInt_of_le (by omega) (by omega)]
      omega

theorem clampInt64_toInt (n : Int64) : clampInt64 n.toInt = n := by
  have hlow := n.le_toInt
  have hhigh := n.toInt_lt
  rw [← Int64.toInt_inj, toInt_clampInt64]
  omega

example : [0.5, -0.5, 3700000.9, -1.5, 1.0 / 0.0].map truncateFloat =
    [0, 0, 3700000, -1, 9223372036854775807] := by decide +kernel

end DocSearch
