/-!
# The shortest decimal of a binary fraction

A finite double is a sign and a binary fraction `m * 2 ^ q`.  Of all decimals
that round to it, the shortest is written; of several of that length, the one
nearest to the fraction.  Where two are equally near, the writer's choice of `Tie`
decides.  Everything is done in exact natural arithmetic.

## Main definitions

* `Decimal` — a digit string and the place of its decimal point.
* `Tie` — which of two equally near decimals is taken.
* `Binary` — a binary fraction `m * 2 ^ q`, and `Binary.ofFloat`.
* `Binary.shortest` — the shortest decimal that rounds to a binary fraction.
* `Decimal.ofFloat` — the same for the magnitude of a finite double.
-/

namespace DocSearch

/-- The decimal `0.d₁d₂d₃… * 10 ^ point`. -/
structure Decimal where
  /-- The digits, each below ten. -/
  digits : List Nat
  /-- How many places the point stands to the right of the first digit. -/
  point : Int
  deriving DecidableEq, Repr

/-- The binary fraction `mantissa * 2 ^ exponent`. -/
structure Binary where
  /-- The integral mantissa. -/
  mantissa : Nat
  /-- The binary exponent. -/
  exponent : Int
  deriving DecidableEq, Repr

/-- Which of two equally near decimals is taken. -/
inductive Tie where
  /-- The one whose last digit is even. -/
  | toEven
  /-- The one of greater magnitude. -/
  | away
  deriving DecidableEq, Repr

/-- Whether the lower of two equally near multiples of a unit is taken, `below` being
its number of units. -/
def Tie.goesDown : Tie → Nat → Bool
  | toEven, below => below % 2 == 0
  | away, _ => false

/-- A ratio of two natural numbers, not reduced. -/
structure Ratio where
  /-- The numerator. -/
  num : Nat
  /-- The denominator. -/
  den : Nat
  deriving DecidableEq, Repr

namespace Ratio

/-- The value of `x / 10 ^ k`. -/
def scaleDown (x : Ratio) (k : Int) : Ratio :=
  ⟨x.num * Nat.pow 10 (-k).toNat, x.den * Nat.pow 10 k.toNat⟩

/-- Order of two ratios with positive denominators. -/
def le (x y : Ratio) : Bool := x.num * y.den ≤ y.num * x.den

/-- Strict order of two ratios with positive denominators. -/
def lt (x y : Ratio) : Bool := x.num * y.den < y.num * x.den

end Ratio

/-- How many decimal digits `n` has; zero has none. -/
def digitCount (n : Nat) : Nat := if n = 0 then 0 else (Nat.toDigits 10 n).length

/-- The decimal digits of `n`, most significant first. -/
def digitsOf (n : Nat) : List Nat := (Nat.toDigits 10 n).map fun c => c.toNat - '0'.toNat

/-- The exponent `k` with `10 ^ k ≤ x < 10 ^ (k + 1)`, for a positive `x`. -/
def Ratio.decade (x : Ratio) : Int :=
  if x.den ≤ x.num then (digitCount (x.num / x.den) : Int) - 1
  else -(digitCount ((x.den - 1) / x.num) : Int)

namespace Binary

/-- The fraction as a ratio. -/
def toRatio (b : Binary) : Ratio :=
  ⟨b.mantissa * Nat.pow 2 b.exponent.toNat, Nat.pow 2 (-b.exponent).toNat⟩

/-- The leading bit of a mantissa, which a double does not store. -/
def hiddenBit : Nat := 0x10000000000000

/-- The magnitude of a finite double. -/
def ofFloat (x : Float) : Binary :=
  let bits : Nat := x.toBits.toNat
  let biased : Nat := bits / hiddenBit % 0x800
  let fraction : Nat := bits % hiddenBit
  if biased = 0 then ⟨fraction, -1074⟩ else ⟨fraction + hiddenBit, (biased : Int) - 1075⟩

/-- The least real that may round to `b`: half a unit below, or a quarter where
the spacing below is half as wide. -/
def lower (b : Binary) : Ratio :=
  if b.mantissa = hiddenBit ∧ -1074 < b.exponent then
    toRatio ⟨4 * b.mantissa - 1, b.exponent - 2⟩
  else toRatio ⟨2 * b.mantissa - 1, b.exponent - 1⟩

/-- The greatest real that may round to `b`: half a unit above. -/
def upper (b : Binary) : Ratio := toRatio ⟨2 * b.mantissa + 1, b.exponent - 1⟩

/-- Whether a real rounds to `b`; the two ends do exactly when the mantissa is even. -/
def rounds (b : Binary) (x : Ratio) : Bool :=
  if b.mantissa % 2 = 0 then b.lower.le x && x.le b.upper else b.lower.lt x && x.lt b.upper

/-- The multiple of `10 ^ k` that rounds to `b` and lies nearest to it, if one of
the two neighbours of `b` on that grid does. -/
def onGrid (tie : Tie) (b : Binary) (k : Int) : Option Nat :=
  let scaled := b.toRatio.scaleDown k
  let below : Nat := scaled.num / scaled.den
  let at? (n : Nat) : Bool := b.rounds (Ratio.scaleDown ⟨n, 1⟩ (-k))
  let nearerBelow : Bool :=
    let rest := 2 * (scaled.num % scaled.den)
    rest < scaled.den || (rest == scaled.den && tie.goesDown below)
  match at? below, at? (below + 1) with
  | true, true => some (if nearerBelow then below else below + 1)
  | true, false => some below
  | false, true => some (below + 1)
  | false, false => none

/-- The first grid among `10 ^ k, 10 ^ (k - 1), …` that holds a decimal for `b`. -/
def firstGrid (tie : Tie) (b : Binary) : Nat → Int → Nat × Int
  | 0, k => (0, k)
  | tries + 1, k =>
    match b.onGrid tie k with
    | some n => (n, k)
    | none => firstGrid tie b tries (k - 1)

/-- The shortest decimal that rounds to a positive `b`.  Seventeen digits always
suffice. -/
def shortest (tie : Tie) (b : Binary) : Decimal :=
  let (n, k) := b.firstGrid tie 18 b.toRatio.decade
  let digits := digitsOf n
  ⟨(digits.reverse.dropWhile (· == 0)).reverse, k + digits.length⟩

end Binary

/-- The shortest decimal of the magnitude of a finite double; zero is `0`. -/
def Decimal.ofFloat (tie : Tie) (x : Float) : Decimal :=
  let b := Binary.ofFloat x
  if b.mantissa = 0 then ⟨[0], 1⟩ else b.shortest tie

end DocSearch
