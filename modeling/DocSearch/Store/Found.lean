import DocSearch.Engine.Error

/-!
# Rows found one after the other

What a statement looks at is found row by row, and something may fail between two
rows.  Whoever needs only some of the rows never sees what fails behind them.  So the
rows are a value together with the failure that they end in, and every operation says
how the failures of its parts follow each other.

## Main definitions

* `Found` — rows and the failure behind them.
* `Found.filterMapM` — look at each row with a function that may fail.
* `Found.append`, `Found.merge` — two searches one after the other, or by turns.
* `Found.sorted`, `Found.sortedInBlocks` — all rows in an order, or block by block.
* `Found.toExcept`, `Found.take` — all rows, or the first ones.
* `Found.least` — the first rows in an order, of runs that are in this order.
-/

namespace DocSearch

/-- Rows that are found one after the other until something fails. -/
structure Found (α : Type) where
  /-- The rows. -/
  rows : List α
  /-- What fails behind them. -/
  failure : Option EvaluationError := none

namespace Found

variable {α β : Type}

/-- Rows behind which nothing fails. -/
def ofList (rows : List α) : Found α := ⟨rows, none⟩

/-- No rows. -/
def empty : Found α := ofList []

/-- A failure before any row. -/
def fail (e : EvaluationError) : Found α := ⟨[], some e⟩

/-- A row in front of others. -/
def cons (a : α) (x : Found α) : Found α := ⟨a :: x.rows, x.failure⟩

/-- What is found once something is known that may fail to be known. -/
def ofExcept (x : Except EvaluationError (Found α)) : Found α :=
  match x with
  | .ok found => found
  | .error e => fail e

/-- What a function gives for rows, up to the first of them for which it fails. -/
def ofRows (f : α → Except EvaluationError (Option β)) (failure : Option EvaluationError) :
    List α → Found β
  | [] => ⟨[], failure⟩
  | a :: as =>
    match f a with
    | .ok (some b) => (ofRows f failure as).cons b
    | .ok none => ofRows f failure as
    | .error e => fail e

/-- What a function gives for each row; it is left out where there is nothing. -/
def filterMapM (f : α → Except EvaluationError (Option β)) (x : Found α) : Found β :=
  ofRows f x.failure x.rows

/-- What a function gives for each row. -/
def mapM (f : α → Except EvaluationError β) (x : Found α) : Found β :=
  x.filterMapM fun a => (f a).map some

/-- The rows that pass. -/
def filterM (p : α → Except EvaluationError Bool) (x : Found α) : Found α :=
  x.filterMapM fun a => (p a).map fun passes => if passes then some a else none

/-- What a function that cannot fail gives for each row. -/
def map (f : α → β) (x : Found α) : Found β := ⟨x.rows.map f, x.failure⟩

/-- The rows for which a property holds that is known without failure. -/
def filter (p : α → Bool) (x : Found α) : Found α := ⟨x.rows.filter p, x.failure⟩

@[simp] theorem ofRows_nil (f : α → Except EvaluationError (Option β))
    (failure : Option EvaluationError) : ofRows f failure [] = ⟨[], failure⟩ := rfl

theorem ofRows_cons_of_ok {f : α → Except EvaluationError (Option β)} {a : α} {b : β}
    (h : f a = .ok (some b)) (failure : Option EvaluationError) (as : List α) :
    ofRows f failure (a :: as) = (ofRows f failure as).cons b := by
  simp [ofRows, h]

theorem ofRows_cons_of_error {f : α → Except EvaluationError (Option β)} {a : α}
    {e : EvaluationError} (h : f a = .error e) (failure : Option EvaluationError) (as : List α) :
    ofRows f failure (a :: as) = fail e := by
  simp [ofRows, h]

/-! ### Several searches -/

/-- Rows and then other rows; the others are not looked for if something fails
before. -/
def append (x y : Found α) : Found α :=
  match x.failure with
  | some _ => x
  | none => ⟨x.rows ++ y.rows, y.failure⟩

@[simp] theorem append_ofList (as bs : List α) :
    (ofList as).append (ofList bs) = ofList (as ++ bs) := rfl

@[simp] theorem append_fail (e : EvaluationError) (x : Found α) :
    (fail e).append x = fail e := rfl

/-- The rows of several searches, one after the other. -/
def concat (searches : List (Found α)) : Found α := searches.foldr append empty

/-- Two searches by turns: of the next row of each, the one that comes first is given,
and then the next row of its search is looked for.  Of two that are equal the first
search gives its own. -/
def merge (le : α → α → Bool) (x y : Found α) : Found α :=
  go x.rows y.rows
where
  /-- By turns the rows that are left. -/
  go : List α → List α → Found α
    | [], bs =>
      match x.failure with
      | some e => fail e
      | none => ⟨bs, y.failure⟩
    | a :: as, [] =>
      match y.failure with
      | some e => fail e
      | none => ⟨a :: as, x.failure⟩
    | a :: as, b :: bs => if le a b then (go as (b :: bs)).cons a else (go (a :: as) bs).cons b
  termination_by as bs => as.length + bs.length

/-! ### Orders -/

/-- All rows in an order; nothing is given before all rows are found. -/
def sorted (le : α → α → Bool) (x : Found α) : Found α :=
  match x.failure with
  | some e => fail e
  | none => ofList (x.rows.mergeSort le)

/-- The rows in an order, the neighbours that belong to one block being sorted among
themselves.  A block is given when the first row of the next one is found. -/
def sortedInBlocks (same le : α → α → Bool) (x : Found α) : Found α :=
  let blocks := x.rows.splitBy same
  let given := if x.failure.isSome then blocks.dropLast else blocks
  ⟨given.flatMap fun block => block.mergeSort le, x.failure⟩

/-! ### What is needed -/

/-- All rows. -/
def toExcept (x : Found α) : Except EvaluationError (List α) :=
  match x.failure with
  | some e => .error e
  | none => .ok x.rows

theorem toExcept_eq_ok_iff {x : Found α} {rows : List α} :
    x.toExcept = .ok rows ↔ x = ofList rows := by
  obtain ⟨as, failure⟩ := x
  cases failure <;> simp [toExcept, ofList]

/-- The first `n` rows; nothing behind them is looked for. -/
def take (n : Nat) (x : Found α) : Except EvaluationError (List α) :=
  if n ≤ x.rows.length then .ok (x.rows.take n) else x.toExcept

/-- The first rows up to a limit, if there is one. -/
def upTo (limit : Option Nat) (x : Found α) : Except EvaluationError (List α) :=
  match limit with
  | some n => x.take n
  | none => x.toExcept

/-- Put a row behind all those that do not come after it. -/
def insertSorted (le : α → α → Bool) (a : α) (rows : List α) : List α :=
  rows.takeWhile (le · a) ++ a :: rows.dropWhile (le · a)

/-- Take the rows of a run into the least `n` rows so far.  When there are `n` and the
next one does not come before the last of them, nothing more is looked for. -/
def takeRun (le : α → α → Bool) (n : Nat) (failure : Option EvaluationError) (held : List α) :
    List α → Except EvaluationError (List α)
  | [] =>
    match failure with
    | some e => .error e
    | none => .ok held
  | a :: as =>
    if held.length < n then takeRun le n failure (insertSorted le a held) as
    else if held.getLast?.any (le · a) then .ok held
    else takeRun le n failure (insertSorted le a held.dropLast) as

/-- The least `n` rows of several runs each of which is in order. -/
def least (le : α → α → Bool) (n : Nat) (runs : List (Found α)) :
    Except EvaluationError (List α) :=
  runs.foldlM (fun held run => takeRun le n run.failure held run.rows) []

end Found

end DocSearch
