import DocSearch.Sql.Satisfaction

/-!
# Connectives of conditions

What a condition means depends on what `AND`, `OR` and `NOT` mean.  Two readings
matter: the three truth values, where a comparison with a missing value is neither
true nor false, and the way a database decides whether a row is selected, where parts
are looked at from left to right, no further than needed, and may fail.  Both have a
conjunction and a disjunction that are associative and have a neutral element, so
what is proved of any such connectives holds of both.

## Main definitions

* `Connectives` — associative connectives with neutral elements.
* `Truth.connectives` — the three truth values.
* `Decision.connectives` — left to right, with failures.
* `Condition.meaning` — a condition with the connectives read in some way.

## Main results

* `Condition.met_eq_meaning` — `Condition.met` reads the connectives left to right.
* `Decision.any_map_eq_ok_true` — when a disjunction holds.
-/

namespace DocSearch

/-- Connectives, with what their laws make the meaning of a list. -/
structure Connectives (α : Type) where
  /-- What always holds. -/
  top : α
  /-- What never holds. -/
  bot : α
  /-- Conjunction. -/
  and : α → α → α
  /-- Disjunction. -/
  or : α → α → α
  /-- Negation. -/
  not : α → α
  and_assoc : ∀ a b c, and (and a b) c = and a (and b c)
  or_assoc : ∀ a b c, or (or a b) c = or a (or b c)
  top_and : ∀ a, and top a = a
  and_top : ∀ a, and a top = a
  bot_or : ∀ a, or bot a = a
  or_bot : ∀ a, or a bot = a

namespace Connectives

variable {α : Type} (K : Connectives α)

/-- The conjunction of a list. -/
def all : List α → α
  | [] => K.top
  | a :: as => K.and a (all as)

/-- The disjunction of a list. -/
def any : List α → α
  | [] => K.bot
  | a :: as => K.or a (any as)

@[simp] theorem all_nil : K.all [] = K.top := rfl

@[simp] theorem all_cons (a : α) (as : List α) : K.all (a :: as) = K.and a (K.all as) := rfl

@[simp] theorem any_nil : K.any [] = K.bot := rfl

@[simp] theorem any_cons (a : α) (as : List α) : K.any (a :: as) = K.or a (K.any as) := rfl

theorem all_singleton (a : α) : K.all [a] = a := K.and_top a

theorem any_singleton (a : α) : K.any [a] = a := K.or_bot a

theorem all_append (as bs : List α) : K.all (as ++ bs) = K.and (K.all as) (K.all bs) := by
  induction as with
  | nil => exact (K.top_and _).symm
  | cons a as ih => rw [List.cons_append, all_cons, ih, all_cons, K.and_assoc]

theorem any_append (as bs : List α) : K.any (as ++ bs) = K.or (K.any as) (K.any bs) := by
  induction as with
  | nil => exact (K.bot_or _).symm
  | cons a as ih => rw [List.cons_append, any_cons, ih, any_cons, K.or_assoc]

end Connectives

/-! ### Three truth values -/

namespace Truth

/-- Negation. -/
def not : Truth → Truth
  | some b => some (!b)
  | none => none

/-- Conjunction: false if a part is false, otherwise unknown if a part is unknown. -/
def and : Truth → Truth → Truth
  | some false, _ => some false
  | _, some false => some false
  | some true, some true => some true
  | _, _ => none

/-- Disjunction: true if a part is true, otherwise unknown if a part is unknown. -/
def or : Truth → Truth → Truth
  | some true, _ => some true
  | _, some true => some true
  | some false, some false => some false
  | _, _ => none

/-- The connectives of the three truth values. -/
def connectives : Connectives Truth where
  top := some true
  bot := some false
  and := and
  or := or
  not := not
  and_assoc := by
    rintro (_ | _ | _) (_ | _ | _) (_ | _ | _) <;> rfl
  or_assoc := by
    rintro (_ | _ | _) (_ | _ | _) (_ | _ | _) <;> rfl
  top_and := by rintro (_ | _ | _) <;> rfl
  and_top := by rintro (_ | _ | _) <;> rfl
  bot_or := by rintro (_ | _ | _) <;> rfl
  or_bot := by rintro (_ | _ | _) <;> rfl

/-- The conjunction of a list. -/
def all (ts : List Truth) : Truth := connectives.all ts

/-- The disjunction of a list. -/
def any (ts : List Truth) : Truth := connectives.any ts

theorem getD_and (t u : Truth) (b : Bool) : (and t u).getD b = (t.getD b && u.getD b) := by
  rcases t with _ | _ | _ <;> rcases u with _ | _ | _ <;> cases b <;> rfl

theorem getD_or (t u : Truth) (b : Bool) : (or t u).getD b = (t.getD b || u.getD b) := by
  rcases t with _ | _ | _ <;> rcases u with _ | _ | _ <;> cases b <;> rfl

theorem getD_not (t : Truth) (b : Bool) : (not t).getD b = !t.getD (!b) := by
  rcases t with _ | _ | _ <;> cases b <;> rfl

theorem and_false (t : Truth) : and t (some false) = some false := by
  rcases t with _ | _ | _ <;> rfl

theorem or_true (t : Truth) : or t (some true) = some true := by
  rcases t with _ | _ | _ <;> rfl

theorem any_of_mem {ts : List Truth} (h : some true ∈ ts) : any ts = some true := by
  induction ts with
  | nil => simp at h
  | cons t ts ih =>
    rcases List.mem_cons.mp h with h | h
    · subst h; rfl
    · have hts : connectives.any ts = some true := ih h
      rw [any, Connectives.any_cons, hts]
      exact or_true t

end Truth

/-! ### Left to right, with failures -/

/-- Whether something is met if what is unknown counts as given, unless it fails. -/
abbrev Decision (ε : Type) := Bool → Except ε Bool

namespace Decision

variable {ε : Type}

/-- The second part is looked at if the first one is met. -/
def and (a b : Decision ε) : Decision ε := fun unknown => do
  if ← a unknown then b unknown else return false

/-- The second part is looked at if the first one is not met. -/
def or (a b : Decision ε) : Decision ε := fun unknown => do
  if ← a unknown then return true else b unknown

/-- Under a negation, what is unknown counts the other way. -/
def not (a : Decision ε) : Decision ε := fun unknown => (a !unknown).map (!·)

theorem and_apply_of_ok {a : Decision ε} {unknown x : Bool} (h : a unknown = .ok x)
    (b : Decision ε) : and a b unknown = if x then b unknown else .ok false := by
  simp only [and, h]; cases x <;> rfl

theorem or_apply_of_ok {a : Decision ε} {unknown x : Bool} (h : a unknown = .ok x)
    (b : Decision ε) : or a b unknown = if x then .ok true else b unknown := by
  simp only [or, h]; cases x <;> rfl

theorem and_apply_of_error {a : Decision ε} {unknown : Bool} {e : ε} (h : a unknown = .error e)
    (b : Decision ε) : and a b unknown = .error e := by
  simp only [and, h]; rfl

theorem or_apply_of_error {a : Decision ε} {unknown : Bool} {e : ε} (h : a unknown = .error e)
    (b : Decision ε) : or a b unknown = .error e := by
  simp only [or, h]; rfl

/-- The connectives that look from left to right. -/
def connectives : Connectives (Decision ε) where
  top := fun _ => .ok true
  bot := fun _ => .ok false
  and := and
  or := or
  not := not
  and_assoc := by
    intro a b c
    funext unknown
    cases ha : a unknown with
    | error e => rw [and_apply_of_error ha, and_apply_of_error (and_apply_of_error ha b)]
    | ok x =>
      rw [and_apply_of_ok ha]
      -- either the first part decides, or both sides go on with the second one
      cases x with
      | false => rw [and_apply_of_ok (and_apply_of_ok ha b)]; simp
      | true => simp only [and, ha]; rfl
  or_assoc := by
    intro a b c
    funext unknown
    cases ha : a unknown with
    | error e => rw [or_apply_of_error ha, or_apply_of_error (or_apply_of_error ha b)]
    | ok x =>
      rw [or_apply_of_ok ha]
      cases x with
      | true => rw [or_apply_of_ok (or_apply_of_ok ha b)]; simp
      | false => simp only [or, ha]; rfl
  top_and := fun _ => rfl
  and_top := by
    intro a
    funext unknown
    cases ha : a unknown with
    | error e => rw [and_apply_of_error ha]
    | ok x => rw [and_apply_of_ok ha]; cases x <;> rfl
  bot_or := fun _ => rfl
  or_bot := by
    intro a
    funext unknown
    cases ha : a unknown with
    | error e => rw [or_apply_of_error ha]
    | ok x => rw [or_apply_of_ok ha]; cases x <;> rfl

variable {as : List (Decision ε)} {unknown : Bool}

/-- A conjunction holds if each part does. -/
theorem all_eq_ok_true :
    connectives.all as unknown = .ok true ↔ ∀ a ∈ as, a unknown = .ok true := by
  induction as with
  | nil => simp [connectives]
  | cons a as ih =>
    show and a (connectives.all as) unknown = .ok true ↔ _
    rw [List.forall_mem_cons, ← ih]
    cases ha : a unknown with
    | error e => simp [and_apply_of_error ha]
    | ok x => rw [and_apply_of_ok ha]; cases x <;> simp

/-- A disjunction does not hold if no part does. -/
theorem any_eq_ok_false :
    connectives.any as unknown = .ok false ↔ ∀ a ∈ as, a unknown = .ok false := by
  induction as with
  | nil => simp [connectives]
  | cons a as ih =>
    show or a (connectives.any as) unknown = .ok false ↔ _
    rw [List.forall_mem_cons, ← ih]
    cases ha : a unknown with
    | error e => simp [or_apply_of_error ha]
    | ok x => rw [or_apply_of_ok ha]; cases x <;> simp

/-- A disjunction holds if some part does and no part before it fails. -/
theorem any_map_eq_ok_true {ι : Type} {f : ι → Decision ε} {is : List ι} :
    connectives.any (is.map f) unknown = .ok true ↔
      ∃ before i after, is = before ++ i :: after ∧ f i unknown = .ok true ∧
        ∀ j ∈ before, ∃ x, f j unknown = .ok x := by
  induction is with
  | nil => simp [connectives]
  | cons i is ih =>
    show or (f i) (connectives.any (is.map f)) unknown = .ok true ↔ _
    cases hi : f i unknown with
    | error e =>
      rw [or_apply_of_error hi]
      constructor
      · intro h
        cases h
      · -- the first part fails, so it is neither the part that holds nor before it
        rintro ⟨before, j, after, heq, hj, hbefore⟩
        cases before with
        | nil =>
          cases heq
          rw [hi] at hj
          cases hj
        | cons k before =>
          cases heq
          obtain ⟨x, hx⟩ := hbefore i (by simp)
          rw [hi] at hx
          cases hx
    | ok x =>
      rw [or_apply_of_ok hi]
      cases x with
      | true => exact ⟨fun _ => ⟨[], i, is, rfl, hi, by simp⟩, fun _ => by simp⟩
      | false =>
        -- the first part has a value and does not hold, so it joins those before
        rw [if_neg (by simp), ih]
        constructor
        · rintro ⟨before, j, after, rfl, hj, hbefore⟩
          refine ⟨i :: before, j, after, rfl, hj, ?_⟩
          exact List.forall_mem_cons.mpr ⟨⟨false, hi⟩, hbefore⟩
        · rintro ⟨before, j, after, heq, hj, hbefore⟩
          cases before with
          | nil =>
            cases heq
            rw [hi] at hj
            cases hj
          | cons k before =>
            cases heq
            exact ⟨before, j, after, rfl, hj, fun k hk => hbefore k (by simp [hk])⟩

theorem not_eq_ok_true {a : Decision ε} :
    connectives.not a unknown = .ok true ↔ a (!unknown) = .ok false := by
  show (a (!unknown)).map (!·) = .ok true ↔ _
  cases a (!unknown) with
  | error e => simp [Except.map]
  | ok x => cases x <;> simp [Except.map]

end Decision

/-! ### Conditions -/

namespace Condition

variable {α : Type}

mutual

/-- What a condition means, given what the connectives and its tests mean. -/
def meaning (K : Connectives α) (holds : Test → α) : Condition → α
  | .test t => holds t
  | .never => K.bot
  | .all parts => K.all (meaningList K holds parts)
  | .any parts => K.any (meaningList K holds parts)
  | .group c => meaning K holds c
  | .not c => K.not (meaning K holds c)

/-- What several conditions mean. -/
def meaningList (K : Connectives α) (holds : Test → α) : List Condition → List α
  | [] => []
  | c :: cs => meaning K holds c :: meaningList K holds cs

end

theorem meaningList_eq_map (K : Connectives α) (holds : Test → α) (cs : List Condition) :
    meaningList K holds cs = cs.map (meaning K holds) := by
  induction cs with
  | nil => rfl
  | cons c cs ih => rw [meaningList, ih, List.map_cons]

/-- The truth of a condition, given the truth of its tests. -/
def truth (holds : Test → Truth) (c : Condition) : Truth := c.meaning Truth.connectives holds

/-- A test as a decision: what is unknown counts as asked. -/
def decideTest {ε : Type} (holds : Test → Except ε Truth) (t : Test) : Decision ε :=
  fun unknown => (holds t).map (·.getD unknown)

variable {ε : Type}

mutual

/-- **Whether a condition is met is its meaning from left to right.** -/
theorem met_eq_meaning (holds : Test → Except ε Truth) (unknown : Bool) :
    ∀ c : Condition, c.met holds unknown = c.meaning Decision.connectives (decideTest holds) unknown
  | .test t => rfl
  | .never => rfl
  | .all parts => by rw [met, meaning, allMet_eq_meaning holds unknown parts]
  | .any parts => by rw [met, meaning, anyMet_eq_meaning holds unknown parts]
  | .group c => by rw [met, meaning, met_eq_meaning holds unknown c]
  | .not c => by rw [met, meaning, met_eq_meaning holds (!unknown) c]; rfl

theorem allMet_eq_meaning (holds : Test → Except ε Truth) (unknown : Bool) :
    ∀ cs : List Condition, allMet holds unknown cs =
      Decision.connectives.all (meaningList Decision.connectives (decideTest holds) cs) unknown
  | [] => rfl
  | c :: cs => by
    rw [allMet, met_eq_meaning holds unknown c, allMet_eq_meaning holds unknown cs]; rfl

theorem anyMet_eq_meaning (holds : Test → Except ε Truth) (unknown : Bool) :
    ∀ cs : List Condition, anyMet holds unknown cs =
      Decision.connectives.any (meaningList Decision.connectives (decideTest holds) cs) unknown
  | [] => rfl
  | c :: cs => by
    rw [anyMet, met_eq_meaning holds unknown c, anyMet_eq_meaning holds unknown cs]; rfl

end

end Condition

end DocSearch
