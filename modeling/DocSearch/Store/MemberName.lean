import DocSearch.Text

/-!
# Names of members in a path

A name in a path is a string of bytes.  In a quoted name a backslash starts an escape,
and what the escape stands for is read without checking it: every byte has a value as
a hexadecimal digit.  A name is compared with the name of a member by code points, up
to the first NUL of either.

## Main definitions

* `readEscape` — the code point of an escape and the bytes behind it.
* `unescapeName` — the code points of a quoted name.
* `bareName` — the code points of a name without quotes.
* `sameName` — whether a name in a path means a member.
-/

namespace DocSearch

/-! ### Code points -/

/-- The code point of an escape that means nothing. -/
def brokenEscape : Nat := 0x99999

/-- Whether a byte continues the code point that other bytes have begun. -/
def continuesCodePoint (b : UInt8) : Bool := b.toNat / 64 == 2

/-- What the first byte of several contributes to a code point. -/
def leadingValue (b : UInt8) : Nat :=
  if b < 0xE0 then b.toNat % 32 else if b < 0xF0 then b.toNat % 16 else b.toNat % 8

/-- The code point that begins with a byte, and the bytes behind it.  A byte that
begins nothing stands for itself. -/
def readCodePoint (b : UInt8) (rest : List UInt8) : Nat × List UInt8 :=
  if b < 0xC0 then (b.toNat, rest)
  else
    let others := (rest.take 3).takeWhile continuesCodePoint
    (others.foldl (fun n c => 64 * n + c.toNat % 64) (leadingValue b), rest.drop others.length)

theorem length_readCodePoint (b : UInt8) (rest : List UInt8) :
    (readCodePoint b rest).2.length ≤ rest.length := by
  unfold readCodePoint
  split <;> simp

/-! ### Escapes -/

/-- The value of a byte as a hexadecimal digit; one that is none has a value, too. -/
def looseHexValue (b : UInt8) : Nat := (b.toNat + 9 * (b.toNat / 64 % 2)) % 16

/-- The value of bytes as hexadecimal digits. -/
def looseHex (bytes : List UInt8) : Nat := bytes.foldl (fun n b => 16 * n + looseHexValue b) 0

/-- Whether a code unit is the first of a surrogate pair. -/
def opensPair (unit : Nat) : Bool := unit / 1024 == 0xD800 / 1024

/-- Whether a code unit is the second of a surrogate pair. -/
def closesPair (unit : Nat) : Bool := unit / 1024 == 0xDC00 / 1024

/-- The code point of a surrogate pair. -/
def pairValue (high low : Nat) : Nat := (high % 1024) * 1024 + low % 1024 + 0x10000

/-- The code point of the escape of one character behind a backslash. -/
def nameEscape? (b : UInt8) : Option Nat :=
  match Char.ofNat b.toNat with
  | '\x27' => some 0x27
  | '"' => some 0x22
  | '/' => some 0x2F
  | '\\' => some 0x5C
  | 'b' => some 0x08
  | 't' => some 0x09
  | 'n' => some 0x0A
  | 'v' => some 0x0B
  | 'f' => some 0x0C
  | 'r' => some 0x0D
  | _ => none

/-- The escape of a code unit behind `\u`.  Two escapes that make a pair of surrogates
are read together; one that is cut short swallows the rest. -/
def readUnitEscape : List UInt8 → Nat × List UInt8
  | a :: b :: c :: d :: rest =>
    let unit := looseHex [a, b, c, d]
    match rest with
    | 0x5C :: 0x75 :: e :: f :: g :: h :: tail =>
      let next := looseHex [e, f, g, h]
      if opensPair unit && closesPair next then (pairValue unit next, tail) else (unit, rest)
    | _ => (unit, rest)
  | _ => (brokenEscape, [])

/-- The escape of a byte behind `\x`; one that is cut short swallows the rest. -/
def readByteEscape : List UInt8 → Nat × List UInt8
  | a :: b :: rest => (looseHex [a, b], rest)
  | _ => (brokenEscape, [])

/-- The code point of the escape that starts with a backslash, and the bytes behind it.
A line separator or paragraph separator behind the backslash is passed over together
with it. -/
def readEscape : List UInt8 → Nat × List UInt8
  | 0xE2 :: 0x80 :: s :: rest =>
    if s = 0xA8 ∨ s = 0xA9 then
      match rest with
      | [] => (0, [])
      | 0x5C :: tail => readEscape tail
      | b :: tail => readCodePoint b tail
    else (brokenEscape, [])
  | 0xE2 :: _ => (brokenEscape, [])
  | 0x75 :: rest => readUnitEscape rest
  | 0x78 :: rest => readByteEscape rest
  | 0x30 :: rest =>
    let digitFollows : Bool := rest.head?.any fun b => 0x30 ≤ b && b ≤ 0x39
    (if digitFollows then brokenEscape else 0, rest)
  | b :: rest => ((nameEscape? b).getD brokenEscape, rest)
  | [] => (brokenEscape, [])

theorem length_readUnitEscape (bytes : List UInt8) :
    (readUnitEscape bytes).2.length ≤ bytes.length := by
  unfold readUnitEscape
  split
  · dsimp only
    split
    · split
      · simp
        omega
      · simp
    · simp
      omega
  · simp

theorem length_readByteEscape (bytes : List UInt8) :
    (readByteEscape bytes).2.length ≤ bytes.length := by
  unfold readByteEscape
  split
  · simp
    omega
  · simp

theorem length_readEscape (bytes : List UInt8) : (readEscape bytes).2.length ≤ bytes.length := by
  fun_induction readEscape bytes with
  | case1 => simp
  | case2 => simp_all; omega
  | case3 _ _ b tail => have := length_readCodePoint b tail; simp; omega
  | case4 => simp
  | case5 => simp
  | case6 rest => have := length_readUnitEscape rest; simp; omega
  | case7 rest => have := length_readByteEscape rest; simp; omega
  | case8 => simp
  | case9 => simp
  | case10 => simp

/-! ### Names -/

/-- The code point that a quoted name begins with, and the bytes behind it. -/
def readNameCode (b : UInt8) (rest : List UInt8) : Nat × List UInt8 :=
  if b = 0x5C then readEscape rest else readCodePoint b rest

theorem length_readNameCode (b : UInt8) (rest : List UInt8) :
    (readNameCode b rest).2.length ≤ rest.length := by
  unfold readNameCode
  split
  · exact length_readEscape rest
  · exact length_readCodePoint b rest

/-- The code points of a quoted name. -/
def unescapeName : List UInt8 → List Nat
  | [] => []
  | b :: rest => (readNameCode b rest).1 :: unescapeName (readNameCode b rest).2
  termination_by bytes => bytes.length
  decreasing_by
    have := length_readNameCode b rest
    simp
    omega

/-- The code points of a name without quotes. -/
def bareName (name : String) : List Nat := name.toList.map Char.toNat

/-- The code points of a name up to its first NUL. -/
def upToNul (name : List Nat) : List Nat := name.takeWhile (· != 0)

/-- Whether a name in a path means the member `member`. -/
def sameName (name : List Nat) (member : String) : Bool :=
  upToNul name == upToNul (bareName member)

end DocSearch
