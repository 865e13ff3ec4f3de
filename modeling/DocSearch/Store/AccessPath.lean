import DocSearch.Store.Estimate
import DocSearch.Store.Term

/-!
# Access paths

The rows that a clause asks for can be reached in several ways: all rows in the order
in which they were stored, the rows of the index or a part of it that comparisons of
type and identifier cut out, or, if clauses are joined by `OR`, the rows of one clause
after those of the other.  For each way the number of rows and the time are estimated.
Nothing is known about a table, so a table is taken to have about a million rows, a
type ten documents, and a type with an identifier one.

Where one index path does more than another one, their estimates are kept in this
order, whatever the formulas say.  A path that is worse than another one in every
respect is dropped.

## Main definitions

* `AccessPath` — a way to the rows, and its estimates.
* `Clause.indexPaths` — the paths of an index.
* `Clause.unionPaths` — the path of clauses joined by `OR`.
* `Clause.accessPaths` — the paths that are worth considering.
-/

namespace DocSearch

/-! ### Paths -/

/-- A term of a clause: the clause is named by the number of clauses around it. -/
structure TermRef where
  /-- How many clauses are around the clause. -/
  level : Nat
  /-- The place in the clause. -/
  place : Nat
  /-- The place of the term that it follows from. -/
  origin : Option Nat
  deriving DecidableEq, Repr

/-- What a path goes through. -/
inductive Reach where
  /-- The table. -/
  | table
  /-- The index. -/
  | index
  /-- Several clauses. -/
  | union
  deriving DecidableEq, Repr

/-- A way to the rows. -/
structure AccessPath where
  /-- What it goes through. -/
  reach : Reach
  /-- The terms that it makes use of. -/
  used : List TermRef := []
  /-- How many columns are fixed. -/
  equalities : Nat := 0
  /-- Whether a column is fixed to one value. -/
  hasEqual : Bool := false
  /-- Whether a column has one of several values. -/
  hasAmong : Bool := false
  /-- Whether the column behind the fixed ones is bounded from below. -/
  lower : Bool := false
  /-- Whether it is bounded from above. -/
  upper : Bool := false
  /-- Whether there is at most one row. -/
  oneRow : Bool := false
  /-- Whether the documents themselves need not be read. -/
  covering : Bool := false
  /-- Whether the order of the rows may be of use. -/
  ordered : Bool := false
  /-- The time. -/
  cost : Estimate := 0
  /-- The number of rows. -/
  rows : Estimate
  deriving DecidableEq, Repr

namespace AccessPath

/-- Whether a path makes use of comparisons. -/
def isConstrained (p : AccessPath) : Bool := p.hasEqual || p.hasAmong || p.lower || p.upper

/-- Whether a path makes use of the term at a place of a clause. -/
def uses (p : AccessPath) (level place : Nat) : Bool :=
  p.used.any fun r => (r.level == level && r.place == place) || r.origin == some place

end AccessPath

/-- The number of rows of a table. -/
def tableRows : Estimate := Estimate.ofNat 0x100000

/-- The number of rows with some columns of the key fixed. -/
def rowsWithFixed : Nat → Estimate
  | 0 => tableRows
  | 1 => Estimate.ofNat 10
  | _ => Estimate.ofNat 1

/-- The time to read a row of a table. -/
def tableStep : Estimate := Estimate.ofNat 3

/-- The time to read a row of an index. -/
def indexStep : Estimate := 14

/-- The number of rows left is at most a quarter for each comparison of this kind. -/
def quarter : Estimate := Estimate.ofNat 4

/-- The number of rows of a range is not estimated lower than this. -/
def leastRange : Estimate := Estimate.ofNat 2

namespace AccessPath

/-- Take into account what is asked of the rows and not made use of.  Each such term
leaves a little less, and one for equality at most a quarter of all. -/
def settle (level : Nat) (clause : Clause) (p : AccessPath) : AccessPath :=
  let left := clause.zipIdx.filter fun (t, place) =>
    t.isAsked && !t.fields.isEmpty && !p.uses level place
  let most := if left.any (·.1.isEquality) then tableRows - quarter else tableRows
  { p with rows := min (p.rows - left.length) most }

/-! ### Comparing paths -/

/-- Whether `p` should not cost more than `q`, because it does less with the same
index. -/
def isPartOf (p q : AccessPath) : Bool :=
  if q.cost < p.cost && q.rows < p.rows then false
  else if p.equalities < q.equalities then true
  else decide (p.used.length < q.used.length) && p.used.all q.used.contains
    && (q.covering || !p.covering)

/-- The estimates of a path, put in order with those of another path of the index. -/
def alignWith (p q : AccessPath) : AccessPath :=
  if q.reach != .index then p
  else if q.isPartOf p then { p with cost := min q.cost p.cost, rows := min (q.rows - 1) p.rows }
  else if p.isPartOf q then { p with cost := max q.cost p.cost, rows := max (q.rows + 1) p.rows }
  else p

/-- The estimates of a path, put in order with those of other paths. -/
def align (others : List AccessPath) (p : AccessPath) : AccessPath :=
  if p.reach == .index then others.foldl alignWith p else p

/-- Whether a path is no worse than another one. -/
def noWorse (p q : AccessPath) : Bool := p.cost ≤ q.cost && p.rows ≤ q.rows

/-- Drop the paths that are worse than `p`, up to one that is not. -/
def dropWorse (p : AccessPath) : List AccessPath → List AccessPath
  | [] => []
  | q :: qs =>
    if q.ordered != p.ordered then q :: dropWorse p qs
    else if q.noWorse p then q :: qs
    else if p.noWorse q then dropWorse p qs
    else q :: dropWorse p qs

/-- Put a path among others unless it is worse than one of them. -/
def insertInto (p : AccessPath) : List AccessPath → List AccessPath
  | [] => [p]
  | q :: qs =>
    if q.ordered != p.ordered then q :: insertInto p qs
    else if q.noWorse p then q :: qs
    else if p.noWorse q then p :: dropWorse p qs
    else q :: insertInto p qs

/-- Consider one more path. -/
def consider (paths : List AccessPath) (p : AccessPath) : List AccessPath :=
  (p.align paths).insertInto paths

end AccessPath

/-! ### Paths of a clause -/

/-- What is known about the statement while its paths are looked for. -/
structure PathContext where
  /-- The outermost clause. -/
  clause : Clause
  /-- Whether the statement needs nothing but the key of the rows. -/
  covering : Bool := false
  /-- Whether the order of the key may be of use. -/
  ordered : Bool := false

namespace Clause

/-- The terms of a clause and of those around it that compare a column, from the
innermost clause outwards. -/
def comparisons (column : KeyColumn) : List Clause → List (TermRef × KeyUse)
  | [] => []
  | clause :: around =>
    clause.zipIdx.filterMap (fun (t, place) =>
      match t with
      | .key _ origin c use _ =>
        if c = column then some (⟨around.length, place, origin⟩, use) else none
      | _ => none) ++ comparisons column around

/-- The path that makes use of one more comparison, before what else is asked is taken
into account. -/
def narrow (p : AccessPath) (ref : TermRef) (use : KeyUse) : AccessPath :=
  let p := { p with used := p.used ++ [ref] }
  let bounded (p : AccessPath) : AccessPath :=
    let bounds : Estimate := p.lower.toNat + p.upper.toNat
    let both : Estimate := if p.lower && p.upper then quarter else 0
    { p with rows := min (p.rows - bounds) (max (p.rows - quarter * bounds - both) leastRange) }
  let fixed (p : AccessPath) : AccessPath :=
    { p with
      equalities := p.equalities + 1
      rows := p.rows + rowsWithFixed (p.equalities + 1) - rowsWithFixed p.equalities }
  match use with
  | .equal =>
    fixed { p with hasEqual := true, oneRow := decide (p.equalities = 1) && !p.hasAmong }
  | .among _ => fixed { p with hasAmong := true }
  | .above => bounded { p with lower := true }
  | .below => bounded { p with upper := true }

/-- The time of a path of the index that gives some rows: find the first one, read on
in the index, and read the rows themselves unless the index has everything. -/
def indexCost (p : AccessPath) : Estimate :=
  let inIndex := Estimate.sum (Estimate.steps tableRows) (p.rows + indexStep)
  if p.covering then inIndex else Estimate.sum inIndex (p.rows + tableStep)

/-- How many lookups a comparison takes. -/
def lookups : KeyUse → Estimate
  | .among count => Estimate.ofNat count
  | _ => 0

/-- The paths of the index that make use of at most `steps` more comparisons;
`repeated` estimates how many lookups there are. -/
def extensions (chain : List Clause) : Nat → Estimate → AccessPath → List AccessPath
  | 0, _, _ => []
  | steps + 1, repeated, p =>
    let column := if p.equalities = 0 then KeyColumn.docType else .id
    let usable := (comparisons column chain).filter fun (_, use) => !p.lower || use == .below
    usable.flatMap fun (ref, use) =>
      let q := narrow p ref use
      let times := repeated + lookups use
      let found := { q with cost := indexCost q + times, rows := q.rows + times }
      let next := if q.lower || q.upper then { q with rows := p.rows } else q
      found.settle (chain.length - 1) (chain.headD [])
        :: (if q.upper || q.equalities = 2 then [] else extensions chain steps times next)

/-- The path of the index that nothing is looked up on, before any comparison. -/
def wholeIndex (k : PathContext) : AccessPath :=
  { reach := .index, covering := k.covering, ordered := k.ordered, rows := tableRows }

/-- The paths of the index that make use of a comparison.  No path makes use of more
than three. -/
def lookupPaths (k : PathContext) (chain : List Clause) : List AccessPath :=
  extensions chain 3 0 (wholeIndex k)

/-- The time to read the rows for all entries of the index: what the entries already
tell need not be read. -/
def rereadCost (clause : Clause) : Estimate :=
  (clause.takeWhile fun t => t.fields.all isKeyField).foldl
    (fun cost t => cost - (if t.isEquality then quarter else 1)) (tableRows + tableStep)

/-- The path of the whole index, if it is of use. -/
def scanPath? (k : PathContext) : Option AccessPath :=
  let inIndex := tableRows + indexStep
  let cost := if k.covering then inIndex else Estimate.sum inIndex (rereadCost k.clause)
  if k.covering || k.ordered then some { wholeIndex k with cost } else none

/-- The path of the whole table. -/
def tablePath : AccessPath := { reach := .table, cost := tableRows + tableStep, rows := tableRows }

/-- The paths that go through the table or the index. -/
def indexPaths (k : PathContext) : List AccessPath :=
  let whole := (tablePath :: (scanPath? k).toList).map (·.settle 0 k.clause)
  whole ++ lookupPaths k [k.clause]

/-! ### Clauses joined by `OR` -/

/-- The time and the number of rows of a clause. -/
structure Expense where
  /-- The time. -/
  cost : Estimate
  /-- The number of rows. -/
  rows : Estimate
  deriving DecidableEq, Repr

namespace Expense

/-- The expense of two clauses. -/
def sum (x y : Expense) : Expense := ⟨Estimate.sum x.cost y.cost, Estimate.sum x.rows y.rows⟩

/-- The better one of a path and an expense so far; a path that makes use of nothing
does not count. -/
def better (best : Option Expense) (p : AccessPath) : Option Expense :=
  if p.used.isEmpty then best
  else
    match best with
    | none => some ⟨p.cost, p.rows⟩
    | some x => if p.cost ≤ x.cost then some ⟨p.cost, min x.rows p.rows⟩ else some x

/-- The expense of the best path, if one makes use of anything. -/
def ofPaths (others paths : List AccessPath) : Option Expense :=
  paths.foldl (fun best p => better best (p.align others)) none

end Expense

mutual

/-- The paths of the terms of a clause that join clauses by `OR`, from a place on;
`others` are the paths that are considered so far. -/
def unionPathsFrom (k : PathContext) (others : List AccessPath) (chain : List Clause)
    (place : Nat) : List Term → List AccessPath
  | [] => []
  | .either _ branches :: ts =>
    let path? := (expenseOfAll k others chain none branches).map fun x =>
      ({ reach := .union, used := [⟨chain.length - 1, place, none⟩], cost := x.cost + 1,
         rows := x.rows } : AccessPath)
    let usable := branches.all fun b => b.any Term.comparesKey
    (if usable then path?.toList else []) ++ unionPathsFrom k others chain (place + 1) ts
  | _ :: ts => unionPathsFrom k others chain (place + 1) ts

/-- The expense of clauses behind some others; there is none if one of them has no
path that makes use of anything. -/
def expenseOfAll (k : PathContext) (others : List AccessPath) (chain : List Clause)
    (sofar : Option Expense) : List (List Term) → Option Expense
  | [] => sofar
  | b :: bs => do
    let paths := lookupPaths k (b :: chain) ++ unionPathsFrom k others (b :: chain) 0 b
    let x ← Expense.ofPaths others paths
    expenseOfAll k others chain (some (sofar.elim x (·.sum x))) bs

end

/-- The path of a term of the outermost clause that joins clauses by `OR`; `others` are
the paths that are considered so far. -/
def unionPaths (k : PathContext) (others : List AccessPath) (t : Term) (place : Nat) :
    List AccessPath :=
  unionPathsFrom k others [k.clause] place [t]

/-- The paths that are worth considering. -/
def accessPaths (k : PathContext) : List AccessPath :=
  k.clause.zipIdx.foldl
    (fun paths (t, place) => (unionPaths k paths t place).foldl AccessPath.consider paths)
    ((indexPaths k).foldl AccessPath.consider [])

/-- The path to the one row with a type and an identifier, if both are fixed. -/
def onlyRow? (k : PathContext) : Option AccessPath := do
  let fixing (column : KeyColumn) : Option TermRef :=
    ((comparisons column [k.clause]).find? (·.2 == .equal)).map (·.1)
  let used := [← fixing .docType, ← fixing .id]
  return { wholeIndex k with
    used, equalities := 2, hasEqual := true, oneRow := true, ordered := false, cost := 39, rows := 1 }

end Clause

end DocSearch
