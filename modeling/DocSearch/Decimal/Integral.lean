import DocSearch.Decimal.Layout

/-!
# The integral part of a double

A double is cut off towards zero where an integer of 64 bits is wanted.  What lies
beyond these integers, the infinities among it, becomes the nearest of them.

## Main definitions

* `Binary.integral` — the integral part of a binary fraction.
* `clampInt64` — the nearest integer of 64 bits.
* `truncateFloat` — a double as an integer of 64 bits.
-/

namespace DocSearch

/-- The integral part of a binary fraction. -/
def Binary.integral (b : Binary) : Nat :=
  if 0 ≤ b.exponent then b.mantissa * Nat.pow 2 b.exponent.toNat
  else b.mantissa / Nat.pow 2 (-b.exponent).toNat

/-- The nearest integer of 64 bits. -/
def clampInt64 (n : Int) : Int64 :=
  if n < Int64.minValue.toInt then Int64.minValue
  else if Int64.maxValue.toInt < n then Int64.maxValue
  else Int64.ofInt n

/-- A double cut off towards zero, as the nearest integer of 64 bits; what is not a
number is zero. -/
def truncateFloat (x : Float) : Int64 :=
  if x.isNaN then 0
  else
    let magnitude : Int := (Binary.ofFloat x).integral
    clampInt64 (if signBit x then -magnitude else magnitude)

end DocSearch
