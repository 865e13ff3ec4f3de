import DocSearch.Decimal.Numeral
import DocSearch.Time.Strftime
import Mathlib.Data.Nat.Digits.Defs

/-!
# Digits and their values

A number is read back from its digits, with or without zeros in front.  An integer of 64
bits is read back from its sign and its digits, and nothing is read as an integer that has
another character behind its first one.

## Main results

* `digitsValue_zeroPadded`, `length_zeroPadded` — what zeros in front change.
* `toList_toString`, `readInt64_toString` — how an integer is written, and that it is read back.
* `readInt_eq_none` — what is no integer.
-/

namespace DocSearch

/-! ### Digits -/

/-- A number is the value of its digits. -/
theorem digitsValue_toDigits (n : Nat) : digitsValue (Nat.toDigits 10 n) = n :=
  Nat.ofDigitChars_ten_toDigits

/-- A digit is no blank. -/
theorem isBlank_of_isDigit {c : Char} (hc : c.isDigit = true) : Text.isBlank c = false := by
  have hdigit := Char.isDigit_iff_toNat.mp hc
  have hzero : '0'.toNat = 48 := rfl
  have hnine : '9'.toNat = 57 := rfl
  simp only [Text.isBlank, Bool.or_eq_false_iff, Bool.and_eq_false_iff, decide_eq_false_iff_not,
    beq_eq_false_iff_ne]
  omega

/-! ### Zeros in front -/

section Padded

variable {width n : Nat}

theorem isDigit_of_mem_zeroPadded {c : Char} (hc : c ∈ zeroPadded width n) : c.isDigit = true := by
  rcases List.mem_append.mp hc with hc | hc
  · rw [List.eq_of_mem_replicate hc]
    decide
  · exact Nat.isDigit_of_mem_toDigits (by decide) (by decide) hc

/-- Zeros in front do not change the value. -/
theorem digitsValue_zeroPadded (width n : Nat) : digitsValue (zeroPadded width n) = n := by
  show Nat.ofDigitChars 10 (List.replicate _ '0' ++ Nat.toDigits 10 n) 0 = n
  rw [Nat.ofDigitChars_append, Nat.ofDigitChars_replicate_zero, Nat.mul_zero]
  exact digitsValue_toDigits n

/-- A number that fits has the width that it is padded to. -/
theorem length_zeroPadded (hwidth : 0 < width) (hn : n < 10 ^ width) :
    (zeroPadded width n).length = width := by
  have hfits := (Nat.length_toDigits_le_iff (by decide) hwidth).mpr hn
  rw [zeroPadded, List.length_append, List.length_replicate]
  omega

theorem zeroPadded_ne_nil (width n : Nat) : zeroPadded width n ≠ [] :=
  List.append_ne_nil_of_right_ne_nil _ Nat.toDigits_ne_nil

end Padded

/-! ### Signed integers -/

/-- Digits have no sign. -/
theorem takeSign_of_isDigit {c : Char} (hc : c.isDigit = true) (cs : List Char) :
    takeSign (c :: cs) = (false, c :: cs) := by
  have hminus : c ≠ '-' := by
    rintro rfl
    exact absurd hc (by decide)
  have hplus : c ≠ '+' := by
    rintro rfl
    exact absurd hc (by decide)
  simp [takeSign, hminus, hplus]

/-- What starts with a digit and goes on with something else is no integer. -/
theorem readInt_eq_none {c d : Char} {cs : List Char} (hc : c.isDigit = true) (hd : d ∈ cs)
    (hother : d.isDigit = false) : readInt (c :: cs) = none := by
  have hall : (c :: cs).all Char.isDigit = false :=
    List.all_eq_false.mpr ⟨d, List.mem_cons_of_mem c hd, by rw [hother]; exact Bool.false_ne_true⟩
  rw [readInt, takeSign_of_isDigit hc]
  simp [hall]

/-- Digits are read as their value, and behind a minus sign as its opposite. -/
theorem readInt_of_digits {cs : List Char} (hne : cs ≠ []) (hcs : ∀ c ∈ cs, c.isDigit = true) :
    readInt cs = some (digitsValue cs : Int) ∧
      readInt ('-' :: cs) = some (-(digitsValue cs : Int)) := by
  have hall : cs.all Char.isDigit = true := List.all_eq_true.mpr hcs
  have hminus : takeSign ('-' :: cs) = (true, cs) := rfl
  have hplain : takeSign cs = (false, cs) := by
    obtain ⟨c, rest, rfl⟩ := List.exists_cons_of_ne_nil hne
    exact takeSign_of_isDigit (hcs c List.mem_cons_self) rest
  constructor
  · rw [readInt, hplain]
    simp [hne, hall]
  · rw [readInt, hminus]
    simp [hne, hall]

/-- An integer is written as the digits of its magnitude, behind a minus sign if it is
negative. -/
theorem toList_toString (n : Int) :
    (toString n).toList = if 0 ≤ n then Nat.toDigits 10 n.natAbs
      else '-' :: Nat.toDigits 10 n.natAbs := by
  rw [Int.toString_eq_repr, Int.repr_eq_if]
  split
  case isTrue h =>
    have hmagnitude : n.toNat = n.natAbs := by omega
    rw [Nat.repr_eq_ofList_toDigits, String.toList_ofList, hmagnitude]
  case isFalse h =>
    have hmagnitude : (-n).toNat = n.natAbs := by omega
    have hsign : "-".toList = ['-'] := rfl
    simp only [Nat.repr_eq_ofList_toDigits, String.toList_append, String.toList_ofList, hsign,
      List.singleton_append, hmagnitude]

theorem readInt_toString (n : Int) : readInt (toString n).toList = some n := by
  obtain ⟨hpositive, hnegative⟩ := readInt_of_digits (Nat.toDigits_ne_nil (n := n.natAbs) (b := 10))
    fun _ => Nat.isDigit_of_mem_toDigits (by decide) (by decide)
  rw [digitsValue_toDigits] at hpositive hnegative
  rw [toList_toString]
  split
  case isTrue h => rw [hpositive, Int.natAbs_of_nonneg h]
  case isFalse h => rw [hnegative, Int.ofNat_natAbs_of_nonpos (by omega), Int.neg_neg]

/-- An integer is written without blanks. -/
theorem isBlank_of_mem_toString {n : Int} {c : Char} (hc : c ∈ (toString n).toList) :
    Text.isBlank c = false := by
  have hdigit : ∀ c ∈ Nat.toDigits 10 n.natAbs, Text.isBlank c = false := fun c hc =>
    isBlank_of_isDigit (Nat.isDigit_of_mem_toDigits (by decide) (by decide) hc)
  rw [toList_toString] at hc
  split at hc
  · exact hdigit c hc
  · rcases List.mem_cons.mp hc with rfl | hc
    · decide
    · exact hdigit c hc

/-- An integer of 64 bits is read back. -/
theorem readInt64_toString (n : Int64) : readInt64 (toString n.toInt) = some n := by
  have hleast : Int64.minValue.toInt = -2 ^ 63 := rfl
  have hgreatest : Int64.maxValue.toInt = 2 ^ 63 - 1 := rfl
  have hlower := n.le_toInt
  have hupper := n.toInt_lt
  rw [readInt64, readInt_toString, Option.bind_some, int64?, if_pos (by omega), Int64.ofInt_toInt]

end DocSearch
