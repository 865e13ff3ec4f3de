import DocSearch.Json.Basic
import DocSearch.Decimal.Numeral

/-!
# Reading a JSON document

A document is one value with blanks around it and nothing else.  Arrays and
objects nest at most 127 deep.  A name that is written twice in an object keeps
its first place and takes its last value.

An integer that fits into 64 bits stays an integer.  For any other number the
digits are gathered into a significand of 64 bits for as long as they fit; the
digits of the integral part that do not fit count towards the exponent, those of
the fraction are dropped.  The number is the significand, as a double, multiplied
or divided by a power of ten; one beyond the range of doubles is refused.

## Main definitions

* `Numeral` — the parts of a written number, and `Numeral.value?`.
* `Json.read` — the value of a document.
-/

namespace DocSearch

/-! ### Numbers -/

/-- A number as it is written. -/
structure Numeral where
  /-- Whether it starts with a minus sign. -/
  negative : Bool
  /-- The digits before the point. -/
  integral : List Char
  /-- The digits after the point, if there is one. -/
  fraction : Option (List Char)
  /-- The exponent, if there is one: whether it is negative, and its digits. -/
  exponent : Option (Bool × List Char)

/-- A significand below `2 ^ 64` and a decimal exponent. -/
structure Scaled where
  /-- The digits that were gathered. -/
  significand : Nat
  /-- The power of ten they are to be multiplied with. -/
  exponent : Int

/-- Gather digits of the integral part; those that do not fit raise the exponent. -/
def Scaled.gatherIntegral (x : Scaled) : List Char → Scaled
  | [] => x
  | c :: cs =>
    let next := 10 * x.significand + (c.toNat - '0'.toNat)
    if next < UInt64.size then gatherIntegral ⟨next, x.exponent⟩ cs
    else ⟨x.significand, x.exponent + (c :: cs).length⟩

/-- Gather digits of the fraction; those that do not fit are dropped. -/
def Scaled.gatherFraction (x : Scaled) : List Char → Scaled
  | [] => x
  | c :: cs =>
    let next := 10 * x.significand + (c.toNat - '0'.toNat)
    if next < UInt64.size then gatherFraction ⟨next, x.exponent - 1⟩ cs else x

/-- A power of ten as a double, for exponents up to 308. -/
def powerOfTen (n : Nat) : Float := floatOfDecimal 1 n

/-- The double `significand * 10 ^ exponent`, rounded at each step; `none` beyond
the range of doubles.  Below `10 ^ -308` the division is done in two steps, after
which nothing is left of a significand of 64 bits. -/
def Scaled.toFloat? (x : Scaled) : Option Float :=
  let f := x.significand.toFloat
  let n := x.exponent.natAbs
  if 0 ≤ x.exponent then
    if 308 < n then (if x.significand = 0 then some f else none)
    else
      let y := f * powerOfTen n
      if y.isInf then none else some y
  else if n ≤ 308 then some (f / powerOfTen n)
  else some (f / powerOfTen 308 / powerOfTen (min (n - 308) 308))

namespace Numeral

/-- The exponents that are carried exactly; a larger one makes the number zero or
puts it out of range. -/
def maxExponent : Nat := 0x7fffffff

/-- The magnitude of a number that is not kept as an integer. -/
def magnitude? (x : Numeral) : Option Float :=
  let scaled := (Scaled.gatherIntegral ⟨0, 0⟩ x.integral).gatherFraction (x.fraction.getD [])
  match x.exponent with
  | none => scaled.toFloat?
  | some (negative, digits) =>
    let n := digitsValue digits
    if maxExponent < n then
      if scaled.significand ≠ 0 && !negative then none else some 0.0
    else
      Scaled.toFloat? ⟨scaled.significand, scaled.exponent + (if negative then -(n : Int) else n)⟩

/-- The number that is written, if doubles reach that far. -/
def value? (x : Numeral) : Option Number :=
  let n := digitsValue x.integral
  let isInteger := x.fraction.isNone && x.exponent.isNone
  if isInteger && !x.negative && n < UInt64.size then some (.int n)
  else if isInteger && x.negative && 0 < n && n ≤ 0x8000000000000000 then some (.int (-n))
  else x.magnitude?.map fun y => .real (if x.negative then -y else y)

end Numeral

/-- At least one digit, and the rest. -/
private def takeDigits (cs : List Char) : Option (List Char × List Char) :=
  let digits := cs.takeWhile Char.isDigit
  if digits.isEmpty then none else some (digits, cs.dropWhile Char.isDigit)

/-- The digits before the point: a single zero, or digits that start with none. -/
private def takeIntegral : List Char → Option (List Char × List Char)
  | '0' :: cs => if (cs.head?.any Char.isDigit) then none else some (['0'], cs)
  | cs => takeDigits cs

private def takeFraction : List Char → Option (Option (List Char) × List Char)
  | '.' :: cs => (takeDigits cs).map fun (digits, rest) => (some digits, rest)
  | cs => some (none, cs)

private def takeExponent : List Char → Option (Option (Bool × List Char) × List Char)
  | [] => some (none, [])
  | c :: cs =>
    if c == 'e' || c == 'E' then
      let (negative, cs) := takeSign cs
      (takeDigits cs).map fun (digits, rest) => (some (negative, digits), rest)
    else some (none, c :: cs)

/-- The number at the start of `cs`, and the rest. -/
def readNumber (cs : List Char) : Option (Number × List Char) := do
  let (negative, cs) := match cs with
    | '-' :: rest => (true, rest)
    | _ => (false, cs)
  let (integral, cs) ← takeIntegral cs
  let (fraction, cs) ← takeFraction cs
  let (exponent, cs) ← takeExponent cs
  let number ← Numeral.value? ⟨negative, integral, fraction, exponent⟩
  return (number, cs)

/-! ### Strings -/

/-- The value of a hexadecimal digit in either case. -/
def hexValue? (c : Char) : Option Nat :=
  if c.isDigit then some (c.toNat - '0'.toNat)
  else if 'a' ≤ c ∧ c ≤ 'f' then some (c.toNat - 'a'.toNat + 10)
  else if 'A' ≤ c ∧ c ≤ 'F' then some (c.toNat - 'A'.toNat + 10)
  else none

/-- The number of four hexadecimal digits. -/
def hexQuad? (a b c d : Char) : Option Nat := do
  return (((← hexValue? a) * 16 + (← hexValue? b)) * 16 + (← hexValue? c)) * 16 + (← hexValue? d)

/-- The first half of a pair of code units for a character beyond `U+FFFF`. -/
def isHighSurrogate (n : Nat) : Bool := 0xD800 ≤ n && n < 0xDC00

/-- The second half of such a pair. -/
def isLowSurrogate (n : Nat) : Bool := 0xDC00 ≤ n && n < 0xE000

/-- The character of a pair of code units. -/
def ofSurrogates (high low : Nat) : Char :=
  Char.ofNat (0x10000 + (high - 0xD800) * 0x400 + (low - 0xDC00))

/-- The character that a backslash before `c` and one more letter stands for. -/
def simpleEscape? (c : Char) : Option Char :=
  if c = '"' || c = '\\' || c = '/' then some c
  else if c = 'b' then some '\x08'
  else if c = 'f' then some '\x0c'
  else if c = 'n' then some '\n'
  else if c = 'r' then some '\r'
  else if c = 't' then some '\t'
  else none

/-- The characters up to the closing quote, and the rest behind it. -/
def readQuoted : List Char → Option (List Char × List Char)
  | [] => none
  | '"' :: rest => some ([], rest)
  | '\\' :: 'u' :: a :: b :: c :: d :: rest =>
    match hexQuad? a b c d with
    | none => none
    | some n =>
      if isHighSurrogate n then
        match rest with
        | '\\' :: 'u' :: e :: f :: g :: h :: rest =>
          match hexQuad? e f g h with
          | none => none
          | some m =>
            if isLowSurrogate m then do
              let (tail, rest) ← readQuoted rest
              return (ofSurrogates n m :: tail, rest)
            else none
        | _ => none
      else if isLowSurrogate n then none
      else do
        let (tail, rest) ← readQuoted rest
        return (Char.ofNat n :: tail, rest)
  | '\\' :: c :: rest => do
    let c ← simpleEscape? c
    let (tail, rest) ← readQuoted rest
    return (c :: tail, rest)
  | c :: rest =>
    if c = '\\' || c.toNat < 0x20 then none
    else do
      let (tail, rest) ← readQuoted rest
      return (c :: tail, rest)

/-! ### Values -/

/-- The four blanks of the format. -/
def isJsonBlank (c : Char) : Bool := c == ' ' || c == '\n' || c == '\t' || c == '\r'

/-- The rest behind leading blanks. -/
def skipBlanks (cs : List Char) : List Char := cs.dropWhile isJsonBlank

/-- How deep arrays and objects may nest. -/
def maxDepth : Nat := 127

/-- The name of a member and the colon behind it, and the rest. -/
def readName (cs : List Char) : Option (String × List Char) :=
  match skipBlanks cs with
  | '"' :: rest => do
    let (name, rest) ← readQuoted rest
    match skipBlanks rest with
    | ':' :: rest => some (String.ofList name, rest)
    | _ => none
  | _ => none

mutual

/-- A value and the rest behind it; `depth` more levels may be opened. -/
def readValue (fuel depth : Nat) (cs : List Char) : Option (Json × List Char) :=
  match fuel with
  | 0 => none
  | fuel + 1 =>
    match skipBlanks cs with
    | 'n' :: 'u' :: 'l' :: 'l' :: rest => some (.null, rest)
    | 't' :: 'r' :: 'u' :: 'e' :: rest => some (.bool true, rest)
    | 'f' :: 'a' :: 'l' :: 's' :: 'e' :: rest => some (.bool false, rest)
    | '"' :: rest => do
      let (s, rest) ← readQuoted rest
      return (.str (String.ofList s), rest)
    | '[' :: rest =>
      match depth with
      | 0 => none
      | depth + 1 =>
        match skipBlanks rest with
        | ']' :: rest => some (.arr [], rest)
        | rest => do
          let (items, rest) ← readItems fuel depth rest
          return (.arr items, rest)
    | '\x7b' :: rest =>
      match depth with
      | 0 => none
      | depth + 1 =>
        match skipBlanks rest with
        | '\x7d' :: rest => some (.obj [], rest)
        | rest => do
          let (members, rest) ← readMembers fuel depth [] rest
          return (.obj members, rest)
    | cs => do
      let (n, rest) ← readNumber cs
      return (.num n, rest)

/-- The items of an array from the next one on, and the rest behind its bracket. -/
def readItems (fuel depth : Nat) (cs : List Char) : Option (List Json × List Char) :=
  match fuel with
  | 0 => none
  | fuel + 1 => do
    let (item, rest) ← readValue fuel depth cs
    match skipBlanks rest with
    | ',' :: rest => do
      let (items, rest) ← readItems fuel depth rest
      return (item :: items, rest)
    | ']' :: rest => some ([item], rest)
    | _ => none

/-- The members of an object, those in `acc` being read already, and the rest
behind its brace. -/
def readMembers (fuel depth : Nat) (acc : List (String × Json)) (cs : List Char) :
    Option (List (String × Json) × List Char) :=
  match fuel with
  | 0 => none
  | fuel + 1 => do
    let (name, rest) ← readName cs
    let (value, rest) ← readValue fuel depth rest
    let acc := Members.put name value acc
    match skipBlanks rest with
    | ',' :: rest => readMembers fuel depth acc rest
    | '\x7d' :: rest => some (acc, rest)
    | _ => none

end

namespace Json

/-- The value at the start of `cs`, and the rest.  Each step of the reader takes a
character or is followed by one that does, so twice the length is fuel enough. -/
def readPrefix (cs : List Char) : Option (Json × List Char) :=
  readValue (2 * cs.length + 2) maxDepth cs

/-- The value of a document. -/
def read (s : String) : Option Json := do
  let (value, rest) ← readPrefix s.toList
  if (skipBlanks rest).isEmpty then return value else none

end Json

end DocSearch
