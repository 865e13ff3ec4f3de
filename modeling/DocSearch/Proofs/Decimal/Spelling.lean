import DocSearch.Decimal.Layout

/-!
# The characters of a number

However a number is written, its text is a sign, if it has one, and behind it at least one
character, each of them a letter, a digit or a point.  Nothing else can come in, so a text
that holds numbers may be cut between such characters and all others.

## Main definitions

* `IsNumeral` — texts of this kind.

## Main results

* `isNumeral_toString` — integers are written so.
* `isNumeral_plainText` — and so are doubles without exponent.
-/

namespace DocSearch

/-- A letter or digit of ASCII, or a point. -/
def isNumeralChar (c : Char) : Bool := c.isAlphanum || c == '.'

/-- A sign, if there is one, and behind it letters, digits and points, at least one. -/
def IsNumeral (s : String) : Prop :=
  ∃ cs : List Char, cs ≠ [] ∧ (∀ c ∈ cs, isNumeralChar c = true) ∧
    (s = String.ofList cs ∨ s = String.ofList ('-' :: cs))

theorem isNumeralChar_of_isDigit {c : Char} (hc : c.isDigit = true) : isNumeralChar c = true := by
  simp [isNumeralChar, Char.isAlphanum, hc]

/-! ### Integers -/

theorem isNumeralChar_of_mem_toDigits {n : Nat} {c : Char} (hc : c ∈ Nat.toDigits 10 n) :
    isNumeralChar c = true :=
  isNumeralChar_of_isDigit (Nat.isDigit_of_mem_toDigits (by decide) (by decide) hc)

/-- **An integer is written with a sign and digits.** -/
theorem isNumeral_toString (n : Int) : IsNumeral (toString n) := by
  have hne : ∀ m : Nat, Nat.toDigits 10 m ≠ [] := by
    intro m
    exact List.ne_nil_of_length_pos (Nat.length_toDigits_pos)
  cases n with
  | ofNat m =>
    refine ⟨Nat.toDigits 10 m, hne m, fun c => isNumeralChar_of_mem_toDigits, .inl ?_⟩
    exact Nat.toString_eq_ofList_toDigits
  | negSucc m =>
    refine ⟨Nat.toDigits 10 (m + 1), hne _, fun c => isNumeralChar_of_mem_toDigits, .inr ?_⟩
    show "-" ++ toString (m + 1) = _
    rw [Nat.toString_eq_ofList_toDigits, String.ofList_cons]
    rfl

/-! ### Doubles -/

theorem isDigit_digitChar {d : Nat} (hd : d < 10) : (digitChar d).isDigit = true := by
  have hall : ∀ d < 10, (digitChar d).isDigit = true := by decide
  exact hall d hd

theorem lt_of_mem_digitsOf {n d : Nat} (hd : d ∈ digitsOf n) : d < 10 := by
  obtain ⟨c, hc, rfl⟩ := List.mem_map.mp hd
  have hdigit := Char.isDigit_iff_toNat.mp (Nat.isDigit_of_mem_toDigits (by decide) (by decide) hc)
  have hzero : '0'.toNat = 48 := rfl
  have hnine : '9'.toNat = 57 := rfl
  omega

namespace Decimal

/-- Each digit of the shortest decimal is below ten. -/
theorem lt_of_mem_digits_ofFloat {tie : Tie} {x : Float} {d : Nat}
    (hd : d ∈ (ofFloat tie x).digits) : d < 10 := by
  unfold ofFloat at hd
  simp only at hd
  split at hd
  · rw [List.mem_singleton.mp hd]
    decide
  · unfold Binary.shortest at hd
    apply lt_of_mem_digitsOf
    rw [List.mem_reverse] at hd
    exact List.mem_reverse.mp ((List.dropWhile_suffix _).mem hd)

variable {d : Decimal}

theorem integral_eq (d : Decimal) : d.integral = if d.point ≤ 0 then ['0'] else
    (d.digits.take d.point.toNat ++
      List.replicate (d.point.toNat - d.digits.length) 0).map digitChar := rfl

theorem integral_ne_nil (d : Decimal) : d.integral ≠ [] := by
  rw [integral_eq]
  split
  · simp
  · -- there is a place before the point, and it is filled with a digit or with a zero
    next hpoint =>
    apply List.ne_nil_of_length_pos
    simp only [List.length_map, List.length_append, List.length_take, List.length_replicate]
    omega

theorem isNumeralChar_of_mem_integral (hd : ∀ n ∈ d.digits, n < 10) {c : Char}
    (hc : c ∈ d.integral) : isNumeralChar c = true := by
  rw [integral_eq] at hc
  split at hc
  · rw [List.mem_singleton.mp hc]
    decide
  · obtain ⟨n, hn, rfl⟩ := List.mem_map.mp hc
    apply isNumeralChar_of_isDigit
    apply isDigit_digitChar
    rcases List.mem_append.mp hn with hn | hn
    · exact hd n (List.mem_of_mem_take hn)
    · rw [List.eq_of_mem_replicate hn]
      decide

theorem isNumeralChar_of_mem_fraction (hd : ∀ n ∈ d.digits, n < 10) {c : Char}
    (hc : c ∈ d.fraction) : isNumeralChar c = true := by
  unfold fraction at hc
  apply isNumeralChar_of_isDigit
  rcases List.mem_append.mp hc with hc | hc
  · rw [List.eq_of_mem_replicate hc]
    decide
  · obtain ⟨n, hn, rfl⟩ := List.mem_map.mp hc
    exact isDigit_digitChar (hd n (List.mem_of_mem_drop hn))

theorem plain_ne_nil (d : Decimal) : d.plain ≠ [] := by
  unfold plain
  split
  · exact d.integral_ne_nil
  · simp

theorem isNumeralChar_of_mem_plain (hd : ∀ n ∈ d.digits, n < 10) {c : Char} (hc : c ∈ d.plain) :
    isNumeralChar c = true := by
  unfold plain at hc
  split at hc
  · exact isNumeralChar_of_mem_integral hd hc
  · rcases List.mem_append.mp hc with hc | hc
    · exact isNumeralChar_of_mem_integral hd hc
    · rcases List.mem_cons.mp hc with rfl | hc
      · decide
      · exact isNumeralChar_of_mem_fraction hd hc

end Decimal

/-- The magnitude of a double as it is written without exponent. -/
def plainMagnitude (x : Float) : List Char :=
  if x.isInf then ['i', 'n', 'f'] else (Decimal.ofFloat .away x).plain

theorem plainText_eq (x : Float) : plainText x = if x.isNaN then "NaN" else
    String.ofList (if signBit x then '-' :: plainMagnitude x else plainMagnitude x) := rfl

/-- **A double without exponent is written with a sign, digits and a point.** -/
theorem isNumeral_plainText (x : Float) : IsNumeral (plainText x) := by
  have hne : plainMagnitude x ≠ [] := by
    unfold plainMagnitude
    split
    · simp
    · exact Decimal.plain_ne_nil _
  have hchars : ∀ c ∈ plainMagnitude x, isNumeralChar c = true := by
    unfold plainMagnitude
    split
    · exact List.all_eq_true.mp rfl
    · intro c hc
      exact Decimal.isNumeralChar_of_mem_plain (fun _ => Decimal.lt_of_mem_digits_ofFloat) hc
  rw [plainText_eq]
  split
  · exact ⟨"NaN".toList, by simp, List.all_eq_true.mp rfl, .inl rfl⟩
  · split
    · exact ⟨_, hne, hchars, .inr rfl⟩
    · exact ⟨_, hne, hchars, .inl rfl⟩

example : [1.5, -0.0, 1e16].map plainText = ["1.5", "-0", "10000000000000000"] := by decide +kernel

end DocSearch
