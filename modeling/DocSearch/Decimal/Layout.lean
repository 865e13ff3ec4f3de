import DocSearch.Decimal.Shortest

/-!
# Layouts of a double

Two layouts are written.  The *real* layout stands in JSON documents and wherever
a real number is shown: positional from `1e-5` up to `1e16` with at least one
fraction digit, otherwise with an exponent that carries its sign.  The *plain*
layout stands in literals of inline statements: always positional, and without a
point where there is no fraction.

They also differ where two shortest decimals are equally near, as for
`1125899906842624.25`: the real layout takes the even last digit, and the plain
layout the greater magnitude.

## Main definitions

* `Decimal.plain`, `Decimal.real` — the two layouts of a magnitude.
* `plainText`, `realText` — the two layouts of a double.
-/

namespace DocSearch

/-- The character of a digit below ten. -/
def digitChar (d : Nat) : Char := Char.ofNat ('0'.toNat + d)

/-- The characters of `digits`, with zeros where there is no digit any more. -/
private def takePadded (digits : List Nat) (n : Nat) : List Char :=
  (digits.take n ++ List.replicate (n - digits.length) 0).map digitChar

namespace Decimal

/-- The digits before the point, at least one. -/
def integral (d : Decimal) : List Char :=
  if d.point ≤ 0 then ['0'] else takePadded d.digits d.point.toNat

/-- The digits after the point, possibly none. -/
def fraction (d : Decimal) : List Char :=
  List.replicate (-d.point).toNat '0' ++ (d.digits.drop d.point.toNat).map digitChar

/-- Positional, without a point where there is no fraction. -/
def plain (d : Decimal) : List Char :=
  if d.fraction.isEmpty then d.integral else d.integral ++ '.' :: d.fraction

/-- Positional with at least one fraction digit, or one digit before the point
and a signed exponent. -/
def real (d : Decimal) : List Char :=
  let exponent := d.point - 1
  if -5 ≤ exponent ∧ exponent < 16 then
    d.integral ++ '.' :: (if d.fraction.isEmpty then ['0'] else d.fraction)
  else
    let mantissa : Decimal := ⟨d.digits, 1⟩
    mantissa.plain ++ ['e', if exponent < 0 then '-' else '+'] ++ Nat.toDigits 10 exponent.natAbs

end Decimal

/-- Whether the sign bit of a double is set. -/
def signBit (x : Float) : Bool := 0x8000000000000000 ≤ x.toBits.toNat

/-- A double in the layout that `layout` gives its magnitude. -/
private def floatText (tie : Tie) (layout : Decimal → List Char) (x : Float) : String :=
  if x.isNaN then "NaN"
  else
    let magnitude := if x.isInf then ['i', 'n', 'f'] else layout (Decimal.ofFloat tie x)
    String.ofList (if signBit x then '-' :: magnitude else magnitude)

/-- A double in the real layout. -/
def realText (x : Float) : String := floatText .toEven Decimal.real x

/-- A double in the plain layout. -/
def plainText (x : Float) : String := floatText .away Decimal.plain x

end DocSearch
