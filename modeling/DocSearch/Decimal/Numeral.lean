import DocSearch.Text

/-!
# Reading numerals

Signed 64-bit integers and doubles are read from their usual spellings, with no
blanks, separators or trailing text.

## Main definitions

* `digitsValue` — the number a digit string stands for.
* `readInt64` — an optional sign and ASCII digits, in range.
* `readFloat` — decimal spellings with optional point and exponent, and the
  names of the infinities and of not-a-number in any letter case.
-/

namespace DocSearch

/-- The number that a string of ASCII digits stands for. -/
def digitsValue (cs : List Char) : Nat :=
  cs.foldl (fun n c => 10 * n + (c.toNat - '0'.toNat)) 0

/-- An optional sign, and the rest; `true` means negative. -/
def takeSign : List Char → Bool × List Char
  | '-' :: cs => (true, cs)
  | '+' :: cs => (false, cs)
  | cs => (false, cs)

/-- The integer spelt by an optional sign and at least one ASCII digit. -/
def readInt (cs : List Char) : Option Int :=
  let (negative, digits) := takeSign cs
  if digits.isEmpty || !digits.all Char.isDigit then none
  else
    let n : Int := digitsValue digits
    some (if negative then -n else n)

/-- An integer in the range of 64 bits with sign. -/
def int64? (n : Int) : Option Int64 :=
  if Int64.minValue.toInt ≤ n ∧ n ≤ Int64.maxValue.toInt then some (Int64.ofInt n) else none

/-- The 64-bit integer that `s` spells. -/
def readInt64 (s : String) : Option Int64 :=
  (readInt s.toList).bind int64?

/-- The value `digits * 10 ^ exponent` as the nearest double.  Every number from
`10 ^ 400` on is infinite, and every number below `10 ^ -400` is zero, so that no
larger power of ten is ever computed. -/
def floatOfDecimal (digits : Nat) (exponent : Int) : Float :=
  if digits = 0 then 0.0
  else if 400 ≤ exponent then 1.0 / 0.0
  else if exponent + (Nat.log2 digits + 1 : Nat) ≤ -400 then 0.0
  else Float.ofScientific digits (exponent < 0) exponent.natAbs

/-- The exponent part of a numeral: nothing, or a letter `e` and a signed integer. -/
private def readExponent : List Char → Option Int
  | [] => some 0
  | c :: cs => if c == 'e' || c == 'E' then readInt cs else none

/-- The magnitude of a double without its sign. -/
private def readMagnitude (cs : List Char) : Option Float :=
  let name := String.ofList (cs.map Char.toLower)
  if name == "inf" || name == "infinity" then some (1.0 / 0.0)
  else if name == "nan" then some (0.0 / 0.0)
  else
    let integral := cs.takeWhile Char.isDigit
    let rest := cs.dropWhile Char.isDigit
    let (fraction, rest) := match rest with
      | '.' :: tail => (tail.takeWhile Char.isDigit, tail.dropWhile Char.isDigit)
      | _ => ([], rest)
    if integral.isEmpty && fraction.isEmpty then none
    else do
      let exponent ← readExponent rest
      return floatOfDecimal (digitsValue (integral ++ fraction)) (exponent - fraction.length)

/-- The double that `s` spells, rounded to nearest; too large a number is infinite. -/
def readFloat (s : String) : Option Float :=
  let (negative, cs) := takeSign s.toList
  (readMagnitude cs).map fun x => if negative then -x else x

end DocSearch
