import DocSearch.Store.AccessPath

/-!
# Choosing an access path

Of the paths that are worth considering the cheapest one is taken.  If the rows are
wanted in an order, a path that gives them in this order, or in the order of the first
few clauses of it, saves sorting them.  A path that looks something up for equality
where no order counts rules out, where one counts, the paths that make no use of
comparisons.

## Main definitions

* `OrderTerm` — what an order looks at.
* `AccessPath.orderOf` — how far a path gives the rows in an order.
* `Goal`, `Goal.choose` — what a statement wants, and the path that is taken.
-/

namespace DocSearch

/-- What an order looks at: a column of the key or anything else, and the direction. -/
structure OrderTerm where
  /-- The column. -/
  column : Option KeyColumn
  /-- Whether great values come first. -/
  descending : Bool := false
  deriving DecidableEq, Repr

/-! ### The order of a path -/

/-- How far a path gives rows in an order. -/
structure PathOrder where
  /-- How many of the first clauses of the order need no sorting. -/
  satisfied : Nat
  /-- Whether the rows are read from the end of the index. -/
  reversed : Bool := false
  deriving DecidableEq, Repr

/-- The columns of an entry of the index; the last one, the place of the row in the
table, is none of the key. -/
def indexColumns : List (Option KeyColumn) := [some .docType, some .id, none]

/-- What of an order is satisfied: for each clause whether it is, and the direction in
which the index is read if that is settled. -/
structure OrderState where
  /-- The clauses of the order, and whether they are satisfied. -/
  clauses : List (OrderTerm × Bool)
  /-- Whether the index is read from its end. -/
  reversed : Option Bool := none

namespace OrderState

/-- Satisfy the first clause that is not satisfied, if it looks at a column and its
direction agrees with the one in which the index is read. -/
def satisfyNext (column : Option KeyColumn) (s : OrderState) : Option OrderState := do
  let ahead := s.clauses.takeWhile (·.2)
  let (next, rest) ← match s.clauses.dropWhile (·.2) with
    | (next, _) :: rest => some (next, rest)
    | [] => none
  if column.isSome && next.column == column && s.reversed.getD next.descending == next.descending then
    some ⟨ahead ++ (next, true) :: rest, some next.descending⟩
  else none

/-- Go through the columns of the index, each with whether it is fixed, as far as they
follow the order.  The second result says whether the order distinguishes all rows. -/
def follow : List (Option KeyColumn × Bool) → OrderState → OrderState × Bool
  | [], s => (s, true)
  | (column, fixed) :: columns, s =>
    if fixed then follow columns s
    else
      match s.satisfyNext column with
      | some s => follow columns s
      | none => (s, column.isNone)

end OrderState

namespace AccessPath

/-- Whether a column is fixed by a term of the outermost clause.  If `amongCounts`, one
of several values counts as well where the path looks them up. -/
def fixesColumn (clause : Clause) (amongCounts : Bool) (p : AccessPath) (column : KeyColumn) :
    Bool :=
  let comparisons := Clause.comparisons column [clause]
  comparisons.any (·.2 == .equal)
    || (amongCounts &&
      ((comparisons.find? fun (_, use) => use != .above && use != .below).any fun (ref, _) =>
        p.used.contains ref))

/-- Whether each column that a path of the index fixes is fixed to one value; one of
several values counts as well if `amongCounts`. -/
def fixedColumns (clause : Clause) (amongCounts : Bool) (p : AccessPath) : List Bool :=
  (p.used.take p.equalities).map fun r => amongCounts || clause[r.place]?.any Term.isEquality

/-- How far a path gives rows in an order. -/
def orderOf (clause : Clause) (order : List OrderTerm) (amongCounts : Bool) (p : AccessPath) :
    PathOrder :=
  let start : OrderState :=
    ⟨order.map fun o => (o, o.column.any (p.fixesColumn clause amongCounts)), none⟩
  let satisfied (s : OrderState) : Nat := (s.clauses.takeWhile (·.2)).length
  if p.oneRow then ⟨order.length, false⟩
  else
    match p.reach with
    | .union => ⟨0, false⟩
    | .table => ⟨satisfied start, false⟩
    | .index =>
      let fixed := p.fixedColumns clause amongCounts
      let columns := indexColumns.zip (fixed ++ List.replicate 3 false)
      let (s, distinguishes) := start.follow columns
      ⟨if distinguishes then order.length else satisfied s, s.reversed.getD false⟩

end AccessPath

/-! ### Goals -/

/-- What a statement wants of a table. -/
structure Goal where
  /-- Whether nothing but the key of the rows is needed. -/
  onlyKeys : Bool := false
  /-- The order in which the rows are wanted. -/
  order : List OrderTerm := []
  /-- How many rows are wanted, if not all. -/
  limit : Option Nat := none
  /-- How many columns a row has that is sorted. -/
  columns : Nat := 4

/-- A path that is taken, and how far it gives the rows in the order that is wanted. -/
structure Choice where
  /-- The path. -/
  path : AccessPath
  /-- Its order. -/
  order : PathOrder

namespace Goal

/-- The estimate of the limit of a goal. -/
def limitRows (g : Goal) : Option Estimate :=
  (g.limit.map Estimate.ofNat).filter (· < Estimate.ofNat UInt32.size)

/-- The time to sort rows of which the first clauses of the order are satisfied. -/
def sortCost (g : Goal) (rows : Estimate) (satisfied : Nat) : Estimate :=
  let wanted := g.order.length
  let perRow := rows + Estimate.ofNat ((g.columns + 59) / 30)
  let partly : Estimate :=
    if satisfied = 0 then 0 else Estimate.ofNat ((wanted - satisfied) * 100 / wanted) - 66
  match g.limitRows with
  | none => perRow + partly + Estimate.steps rows
  | some most =>
    perRow + partly + 10 + (if satisfied = 0 then 0 else 6) + Estimate.steps (min rows most)

/-- How good a path is; of two paths the one with the smaller rank is taken. -/
structure Rank where
  /-- The time with all sorting. -/
  cost : Estimate
  /-- The number of rows. -/
  rows : Estimate
  /-- The time without sorting. -/
  unsorted : Estimate

/-- Whether a rank is smaller than another one. -/
def Rank.before (x y : Rank) : Bool :=
  decide (x.cost < y.cost) || (x.cost == y.cost && (decide (x.rows < y.rows)
    || (x.rows == y.rows && decide (x.unsorted < y.unsorted))))

/-- The rank of a path where no order counts. -/
def rank (p : AccessPath) : Rank := ⟨p.cost, p.rows, p.cost - 2⟩

/-- The rank of a path where the order counts, some rows being expected. -/
def rankSorted (g : Goal) (rows : Estimate) (p : AccessPath) (satisfied : Nat) : Rank :=
  if satisfied < g.order.length then
    ⟨Estimate.sum p.cost (g.sortCost rows satisfied) + 3, p.rows, p.cost⟩
  else rank p

/-- The first of several things with the smallest rank. -/
def firstLeast {α : Type} (rank : α → Rank) : List α → Option α
  | [] => none
  | a :: as => some (as.foldl (fun best b => if (rank b).before (rank best) then b else best) a)

/-- The path that is taken to the rows that a clause asks for. -/
def choose (g : Goal) (clause : Clause) : Choice :=
  let k : PathContext :=
    { clause, covering := g.onlyKeys, ordered := g.order.any (·.column.isSome) }
  let paths := Clause.accessPaths k
  let first := (firstLeast rank paths).getD Clause.tablePath
  if g.order.isEmpty then ⟨first, ⟨0, false⟩⟩
  else
    let paths :=
      if first.hasEqual || first.hasAmong then paths.filter AccessPath.isConstrained else paths
    let rows := if first.rows < 0 then 1 else first.rows + 1
    let choices := paths.map fun p => (⟨p, p.orderOf clause g.order false⟩ : Choice)
    (firstLeast (fun c => g.rankSorted rows c.path c.order.satisfied) choices).getD
      ⟨Clause.tablePath, ⟨0, false⟩⟩

/-- The path that is taken; if there is at most one row, nothing has to be chosen. -/
def chooseAtTop (g : Goal) (clause : Clause) : Choice :=
  match Clause.onlyRow? { clause, covering := g.onlyKeys } with
  | some p => ⟨p, ⟨g.order.length, false⟩⟩
  | none => g.choose clause

end Goal

end DocSearch
