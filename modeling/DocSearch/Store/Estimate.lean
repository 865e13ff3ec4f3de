/-!
# Estimates

How many rows something gives, and how long it takes, is only estimated.  An estimate
is ten times the binary logarithm of a number, so that a product of numbers is a sum of
estimates.

## Main definitions

* `Estimate.ofNat` — the estimate of a number.
* `Estimate.sum` — the estimate of a sum.
* `Estimate.steps` — the estimate of how often a number can be halved.
-/

namespace DocSearch

/-- Ten times the binary logarithm of a number. -/
abbrev Estimate := Int

namespace Estimate

/-- Ten times the binary logarithm of one and some eighths. -/
def eighths : List Estimate := [0, 2, 3, 5, 6, 7, 8, 9]

/-- The estimate of a number; only its first three binary digits behind the leading one
count. -/
def ofNat (n : Nat) : Estimate :=
  if n < 2 then 0 else 10 * Nat.log2 n + eighths.getD (8 * n / Nat.pow 2 n.log2 % 8) 0

/-- How much the estimate of a sum lies above the greater one of two that differ by at
most 31. -/
def excess : List Estimate :=
  [10, 10, 9, 9, 8, 8, 7, 7, 7, 6, 6, 6, 5, 5, 5, 4, 4, 4, 4, 3, 3, 3, 3, 3, 3, 2, 2, 2, 2, 2,
    2, 2]

/-- The estimate of the sum of two numbers that have estimates. -/
def sum (a b : Estimate) : Estimate :=
  let greater := max a b
  let difference := (greater - min a b).toNat
  if 49 < difference then greater
  else if 31 < difference then greater + 1
  else greater + excess.getD difference 0

/-- The estimate of the binary logarithm of a number that has an estimate. -/
def steps (a : Estimate) : Estimate := if a ≤ 10 then 0 else ofNat a.toNat - 33

end Estimate

end DocSearch
