import DocSearch.Sql.Condition

/-!
# Whether a condition is met

The tests of a condition are true, false or unknown, or fail.  Parts are looked at
from left to right and no further than needed, so a failure behind the part that
decides does not matter.  A condition selects what makes it true; unknown therefore
counts as false, and under a negation as true.

## Main definitions

* `Truth` — the truth values.
* `Condition.met` — whether a condition is met, given the truth of its tests.
-/

namespace DocSearch

/-- A truth value; `none` is unknown. -/
abbrev Truth := Option Bool

namespace Condition

variable {ε : Type}

mutual

/-- Whether a condition is met if an unknown test counts as `unknown`. -/
def met (holds : Test → Except ε Truth) (unknown : Bool) : Condition → Except ε Bool
  | .test t => (holds t).map (·.getD unknown)
  | .never => .ok false
  | .all parts => allMet holds unknown parts
  | .any parts => anyMet holds unknown parts
  | .group c => met holds unknown c
  | .not c => (met holds (!unknown) c).map (!·)

/-- Whether all of several conditions are met. -/
def allMet (holds : Test → Except ε Truth) (unknown : Bool) : List Condition → Except ε Bool
  | [] => .ok true
  | c :: cs => do if ← met holds unknown c then allMet holds unknown cs else return false

/-- Whether one of several conditions is met. -/
def anyMet (holds : Test → Except ε Truth) (unknown : Bool) : List Condition → Except ε Bool
  | [] => .ok false
  | c :: cs => do if ← met holds unknown c then return true else anyMet holds unknown cs

end

end Condition

end DocSearch
