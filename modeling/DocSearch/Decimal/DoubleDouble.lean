import DocSearch.Decimal.Layout

/-!
# Reading a decimal in doubled precision

The database reads a decimal as a significand of at most 64 bits and a power of ten.
The significand is held exactly by two doubles, and the pair is multiplied by powers
of ten that are pairs of doubles themselves.  What comes out is the sum of the two
parts, which is nearly always, but not always, the nearest double.

## Main definitions

* `DoubleDouble` — a double and what rounding has lost of it.
* `DoubleDouble.mul` — the product of two of them.
* `Significand.ofDigits` — the significand of a digit string and its power of ten.
* `floatOfDigits` — the double that is read for a digit string and a power of ten.
-/

namespace DocSearch

/-! ### Pairs of doubles -/

/-- A double and what rounding has lost of it. -/
structure DoubleDouble where
  /-- The double. -/
  high : Float
  /-- What is missing. -/
  low : Float
  deriving Repr

namespace DoubleDouble

/-- A double without the lower 26 bits of its mantissa, so that the product of two such
doubles is exact. -/
def upperHalf (x : Float) : Float := Float.ofBits (x.toBits &&& 0xFFFFFFFFFC000000)

/-- The product of two doubles with what rounding has lost of it. -/
def ofProduct (x y : Float) : DoubleDouble :=
  let hx := upperHalf x
  let tx := x - hx
  let hy := upperHalf y
  let ty := y - hy
  let p := hx * hy
  let q := hx * ty + tx * hy
  let c := p + q
  ⟨c, p - c + q + tx * ty⟩

/-- The product of two pairs; the product of the two lower parts is too small to
matter. -/
def mul (x y : DoubleDouble) : DoubleDouble :=
  let c := ofProduct x.high y.high
  let lost := x.high * y.low + x.low * y.high + c.low
  let high := c.high + lost
  ⟨high, c.high - high + lost⟩

/-- Multiply by a pair several times. -/
def mulTimes (y : DoubleDouble) : Nat → DoubleDouble → DoubleDouble
  | 0, x => x
  | n + 1, x => mulTimes y n (x.mul y)

/-- Multiply by a power of ten, the pairs for `10 ^ 100`, `10 ^ 10` and `10` being
given. -/
def mulPower (hundred ten one : DoubleDouble) (n : Nat) (x : DoubleDouble) : DoubleDouble :=
  one.mulTimes (n % 10) (ten.mulTimes (n % 100 / 10) (hundred.mulTimes (n / 100) x))

/-- Multiply by `10 ^ e`. -/
def scale (e : Int) (x : DoubleDouble) : DoubleDouble :=
  if 0 < e then mulPower ⟨1.0e100, -1.5902891109759918046e83⟩ ⟨1.0e10, 0.0⟩ ⟨1.0e1, 0.0⟩ e.natAbs x
  else
    mulPower ⟨1.0e-100, -1.99918998026028836196e-117⟩ ⟨1.0e-10, -3.6432197315497741579e-27⟩
      ⟨1.0e-1, -5.5511151231257827021e-18⟩ e.natAbs x

/-- The greatest double below `2 ^ 64`. -/
def greatestBelowWord : Float := 18446744073709549568.0

/-- A natural number of at most 64 bits. -/
def ofWord (n : Nat) : DoubleDouble :=
  let high := n.toUInt64.toFloat
  if high ≤ greatestBelowWord then
    let m := high.toUInt64.toNat
    ⟨high, if m ≤ n then (n - m).toUInt64.toFloat else -(m - n).toUInt64.toFloat⟩
  else ⟨high, 0.0⟩

/-- The pair as one double; where the parts cancel out beyond all doubles, it is
infinite. -/
def toFloat (x : DoubleDouble) : Float :=
  let sum := x.high + x.low
  if sum.isNaN then 1.0 / 0.0 else sum

end DoubleDouble

/-! ### Significands -/

/-- The number `value * 10 ^ exponent`. -/
structure Significand where
  /-- The value, of at most 64 bits. -/
  value : Nat
  /-- The power of ten. -/
  exponent : Int
  deriving DecidableEq, Repr

namespace Significand

/-- A digit behind a significand of this size does not count any more. -/
def digitLimit : Nat := (UInt64.size - 1 - 9) / 10

/-- A significand of this size is not multiplied by ten any more. -/
def wordLimit : Nat := (UInt64.size - 1 - 0x7ff) / 10

/-- Put a digit behind a significand. -/
def push (s : Significand) (digit : Nat) : Significand :=
  if s.value < digitLimit then ⟨10 * s.value + digit, s.exponent⟩ else ⟨s.value, s.exponent + 1⟩

/-- Multiply the value by ten at most `n` times, as long as the product has 64 bits. -/
def raise : Nat → Significand → Significand
  | 0, s => s
  | n + 1, s => if s.value < wordLimit then raise n ⟨10 * s.value, s.exponent - 1⟩ else s

/-- Divide the value by ten at most `n` times, as long as the quotient is exact. -/
def lower : Nat → Significand → Significand
  | 0, s => s
  | n + 1, s => if s.value % 10 = 0 then lower n ⟨s.value / 10, s.exponent + 1⟩ else s

/-- The significand with a power of ten as near to zero as possible. -/
def balance (s : Significand) : Significand :=
  if 0 ≤ s.exponent then raise s.exponent.toNat s else lower (-s.exponent).toNat s

/-- The significand of a digit string whose last digit stands for `10 ^ exponent`. -/
def ofDigits (digits : List Nat) (exponent : Int) : Significand :=
  (digits.foldl push ⟨0, exponent⟩).balance

end Significand

/-- The double that is read for a digit string whose last digit stands for
`10 ^ exponent`. -/
def floatOfDigits (digits : List Nat) (exponent : Int) : Float :=
  let s := Significand.ofDigits digits exponent
  if s.value = 0 then 0.0 else ((DoubleDouble.ofWord s.value).scale s.exponent).toFloat

/-- The double that is read for an integer. -/
def rereadInt (n : Int) : Float :=
  let x := floatOfDigits (digitsOf n.natAbs) 0
  if n < 0 then -x else x

/-- The double that is read for the shortest decimal of a finite double. -/
def rereadFloat (x : Float) : Float :=
  let d := Decimal.ofFloat .toEven x
  let y := floatOfDigits d.digits (d.point - d.digits.length)
  if signBit x then -y else y

end DocSearch
