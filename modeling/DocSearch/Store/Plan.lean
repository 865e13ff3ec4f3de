import DocSearch.Store.Choice
import DocSearch.Store.Found

/-!
# Plans

A plan says how the rows that meet some demands are found in a table: what is decided
before any row, which rows are looked at and in which order, and what is asked of each
of them, in which order.

* The rows of a part of the index are not asked again what has been looked up.  What
  the index can tell is asked before everything else.
* For clauses joined by `OR` there is a plan for each of them, with everything else
  that the index may be of use for.  A row that another clause has already given is
  passed over, and any other row is asked everything else.

## Main definitions

* `Plan`, `Plan.make` — plans, and the plan for some demands.
* `Plan.run` — the rows that a plan finds.
* `Plan.runs` — the same rows, divided where the index is searched anew.
-/

namespace DocSearch

/-! ### Plans and how they are made -/

/-- How rows are found. -/
inductive Plan where
  /-- Decide some demands, and ask others of all rows in the order in which they were
  stored. -/
  | table (decided asked : List Demand)
  /-- Decide some demands, and ask others of the rows for which tests hold, in the order
  of the key or in reverse. -/
  | index (decided : List Demand) (tests : List Test) (reversed : Bool) (asked : List Demand)
  /-- Decide some demands, and ask others of the rows that several plans find, one after
  the other. -/
  | union (decided : List Demand) (branches : List Plan) (asked : List Demand)
  deriving Repr

/-- A test that is looked up instead of a demand. -/
structure Lookup where
  /-- The place of the demand. -/
  place : Nat
  /-- The test. -/
  test : Test
  deriving Repr

namespace Lookup

/-- What is looked up for a term of a clause. -/
def ofRef? (clause : Clause) (r : TermRef) : Option Lookup :=
  match clause[r.place]? with
  | some (.key _ origin _ _ test) => some ⟨origin.getD r.place, test⟩
  | _ => none

end Lookup

namespace Plan

/-- The demands that are not decided and do not stand at one of some places. -/
def without (places : List Nat) (demands : List Demand) : List Demand :=
  (demands.zipIdx.filter fun (a, i) => !a.isDecided && !places.contains i).map (·.1)

/-- The plan that asks everything of all rows. -/
def ofTable (demands : List Demand) : Plan :=
  table (demands.filter Demand.isDecided) (without [] demands)

/-- The plan that looks some tests up. -/
def ofLookups (demands : List Demand) (lookups : List Lookup) (reversed : Bool) : Plan :=
  let (covered, others) :=
    (without (lookups.map (·.place)) demands).partition Demand.readsKeyOnly
  index (demands.filter Demand.isDecided) (lookups.map (·.test)) reversed (covered ++ others)

/-- The plan that resolves the demand at a place into clauses; `makeBranch` makes the
plan of each of them, for which the other demands count that the index may be of use
for. -/
def ofClauses (makeBranch : List Demand → Plan) (demands : List Demand) (place : Nat)
    (joined : Demand) : Plan :=
  let others := without [place] demands
  let useful := others.filter fun a => a.term.isUseful
  union (demands.filter Demand.isDecided)
    (joined.disjuncts.map fun branch => makeBranch (branch.conjuncts ++ useful)) others

/-- The plan for a path. -/
def ofPath (makeBranch : List Demand → Plan) (clause : Clause) (demands : List Demand)
    (reversed : Bool) (p : AccessPath) : Plan :=
  match p.reach with
  | .table => ofTable demands
  | .index => ofLookups demands (p.used.filterMap (Lookup.ofRef? clause)) reversed
  | .union =>
    match p.used.head?.bind fun r => demands[r.place]?.map (r.place, ·) with
    | some (place, joined) => ofClauses makeBranch demands place joined
    | none => ofTable demands

/-- The plan for demands that are joined by `OR` to others; at most `depth` times a demand
is resolved into clauses. -/
def makeInner (onlyKeys : Bool) : Nat → List Demand → Plan
  | 0, demands => ofTable demands
  | depth + 1, demands =>
    let clause := Clause.ofDemands demands
    let choice := ({ onlyKeys } : Goal).choose clause
    ofPath (makeInner onlyKeys depth) clause demands false choice.path

/-- How large demands are.  A demand that is resolved into clauses leaves something
smaller in each of them. -/
def totalSize (demands : List Demand) : Nat := demands.foldr (·.size + ·) 0

end Plan

/-- How the rows of a plan follow each other in view of the order that is wanted. -/
inductive Arrangement where
  /-- They are in this order. -/
  | inOrder
  /-- They are in the order of its first clauses. -/
  | inBlocks (clauses : Nat)
  /-- They are in this order as long as the index is not searched anew. -/
  | inRuns
  /-- They have to be sorted. -/
  | mixed
  deriving DecidableEq, Repr

/-- A plan and how its rows follow each other. -/
structure ArrangedPlan where
  /-- The plan. -/
  plan : Plan
  /-- How its rows follow each other. -/
  arrangement : Arrangement

namespace Plan

/-- How the rows of a path follow each other, and whether it is gone in reverse. -/
def arrange (g : Goal) (clause : Clause) (choice : Choice) : Arrangement × Bool :=
  let order := choice.order
  if g.order.length ≤ order.satisfied then (.inOrder, order.reversed)
  else if 0 < order.satisfied then (.inBlocks order.satisfied, order.reversed)
  else
    let inner := choice.path.orderOf clause g.order true
    if g.order.length ≤ inner.satisfied then (.inRuns, inner.reversed) else (.mixed, false)

/-- The longest order that is of any use for finding rows. -/
def longestOrder : Nat := 63

/-- The plan for demands.  If the order is too long, the rows are found without regard
to it. -/
def make (g : Goal) (demands : List Demand) : ArrangedPlan :=
  let tooLong := longestOrder < g.order.length
  let g := if tooLong then { g with order := [] } else g
  let clause := Clause.ofDemands demands
  let choice := g.chooseAtTop clause
  let (arrangement, reversed) := arrange g clause choice
  let makeBranch := makeInner g.onlyKeys (totalSize demands)
  ⟨ofPath makeBranch clause demands reversed choice.path,
    if tooLong then .mixed else arrangement⟩

end Plan

/-! ### What a plan finds -/

/-- Documents in the order of type and identifier. -/
def inKeyOrder (docs : List Document) : List Document :=
  docs.mergeSort fun d e => d.docType < e.docType || (d.docType == e.docType && !(e.id < d.id))

/-- Whether a test holds for a row. -/
def Document.satisfies (d : Document) (t : Test) : Bool :=
  match d.holds t with
  | .ok (some b) => b
  | _ => false

namespace Plan

/-- The rows of the index for which tests hold. -/
def lookUp (tests : List Test) (reversed : Bool) (docs : List Document) : List Document :=
  let rows := inKeyOrder (docs.filter fun d => tests.all d.satisfies)
  if reversed then rows.reverse else rows

/-- What is found if some demands hold that are decided before. -/
def ifDecided (decided : List Demand) (found : Found Document) : Found Document :=
  .ofExcept do if ← Demand.decide decided then return found else return .empty

/-- The rows that meet some demands. -/
def ask (asked : List Demand) (rows : Found Document) : Found Document :=
  rows.filterM fun d => Demand.allHold d asked

mutual

/-- The rows that a plan finds. -/
def run (docs : List Document) : Plan → Found Document
  | table decided asked => ifDecided decided (ask asked (.ofList docs))
  | index decided tests reversed asked =>
    ifDecided decided (ask asked (.ofList (lookUp tests reversed docs)))
  | union decided branches asked => ifDecided decided (runAll docs asked [] branches)

/-- The rows that several plans find and that meet some demands, but for those that have
been seen before. -/
def runAll (docs : List Document) (asked : List Demand) (seen : List Document) :
    List Plan → Found Document
  | [] => .empty
  | branch :: branches =>
    let found := run docs branch
    (ask asked (found.filter fun d => !seen.any d.sameKey)).append
      (runAll docs asked (seen ++ found.rows) branches)

end

/-- Whether the index is searched anew for every single row. -/
def looksUpRows (tests : List Test) : Bool :=
  tests.any fun t => t.keyUse?.any fun (column, use) =>
    column == .id && use != .above && use != .below

/-- The rows that a plan finds, divided where the index is searched anew. -/
def runs (docs : List Document) (plan : Plan) : List (Found Document) :=
  match plan with
  | index decided tests reversed asked =>
    let together (d e : Document) : Bool := d.docType == e.docType && !looksUpRows tests
    let parts := (lookUp tests reversed docs).splitBy together
    match Demand.decide decided with
    | .ok true => parts.map fun rows => ask asked (.ofList rows)
    | .ok false => []
    | .error e => [.fail e]
  | _ => [plan.run docs]

end Plan

end DocSearch
