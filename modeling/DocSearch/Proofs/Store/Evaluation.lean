import DocSearch.Proofs.Sql.Rendering
import DocSearch.Store.Document

/-!
# Evaluating an expression on a document

The text of a condition is read as an expression, and an expression is evaluated on
the row of a document: columns and members of its body, the functions of the store,
and comparisons that are unknown if a cell is empty.  What a test means in a search is
the value of the comparison that its text is read as.

## Main definitions

* `Operand.evaluate`, `Comparison.evaluate` — the value of an operand and of a comparison.
* `Document.decide` — whether an expression holds on a document.
* `Document.Selects`, `Document.Rejects` — the text of a condition is true, is false.

## Main results

* `Document.evaluate_comparison` — a test is the comparison that its text is read as.
* `Document.decide_render` — the text of a condition decides as the condition does.
-/

namespace DocSearch

open Sql

/-! ### Values -/

/-- The member that a sign extracts from a body at a path. -/
def extractMember (d : Document) (sign path : String) : Except EvaluationError Cell := do
  let member ← (followPath path d.body).mapError fun _ => EvaluationError.badPath path
  if sign = "->" then return Cell.ofMemberText member
  else if sign = "->>" then return Cell.ofMember member
  else .error .notUnderstood

/-- The value of a column. -/
def columnCell (d : Document) (name : String) : Except EvaluationError Cell :=
  if name = "id" then .ok (.text d.id)
  else if name = "type" then .ok (.text d.docType)
  else if name = "doc" then .ok (.text d.body.print)
  else .error .notUnderstood

/-- The value of a function. -/
def callFunction (name : String) (c : Cell) : Except EvaluationError Cell :=
  match (ScalarFunction.named? name).bind (·.call? [.cell c]) with
  | some x => x
  | none => .error .notUnderstood

namespace Sql

/-- The value of an operand on the row of a document. -/
def Operand.evaluate (d : Document) : Operand → Except EvaluationError Cell
  | .number n => .ok (.integer (Int64.ofNat n))
  | .column name => columnCell d name
  | .literal s => .ok (.text s)
  | .value v => .ok (Cell.ofValue v)
  | .extract sign (.column "doc") (.literal path) => extractMember d sign path
  | .extract _ _ _ => .error .notUnderstood
  | .call name x => do callFunction name (← x.evaluate d)
  | .cast _ _ => .error .notUnderstood

/-- Whether an order satisfies a sign. -/
def signAccepts (sign : String) : Option (Ordering → Bool) :=
  if sign = "=" then some (· == .eq)
  else if sign = ">" then some RangeOp.gt.accepts
  else if sign = ">=" then some RangeOp.gte.accepts
  else if sign = "<" then some RangeOp.lt.accepts
  else if sign = "<=" then some RangeOp.lte.accepts
  else none

/-- A list of bound values. -/
def boundValues : List Operand → Except EvaluationError (List Value)
  | [] => .ok []
  | .value v :: xs => return v :: (← boundValues xs)
  | _ :: _ => .error .notUnderstood

/-- The value of a comparison on the row of a document. -/
def Comparison.evaluate (d : Document) : Comparison → Except EvaluationError Truth
  | .compare sign x y => do
    let x ← x.evaluate d
    let y ← y.evaluate d
    match signAccepts sign with
    | some accepts => return (x.compare? y).map accepts
    | none => .error .notUnderstood
  | .like x (.value (.text pattern)) (.literal "\\") => do (← x.evaluate d).like pattern
  | .like _ _ _ => .error .notUnderstood
  | .among x items => do
    let x ← x.evaluate d
    return x.among (← boundValues items)
  | .notNull x => do return some ((← x.evaluate d) != .null)

end Sql

namespace Document

theorem boundValues_map_value (values : List Value) :
    Sql.boundValues (values.map .value) = .ok values := by
  induction values with
  | nil => rfl
  | cons v values ih => rw [List.map_cons, Sql.boundValues, ih]; rfl

/-- A reserved field is a column of the statement and of the document. -/
theorem columnCell_column? (d : Document) {field name : String}
    (h : Dialect.column? field = some name) :
    ∃ s, d.column? field = some s ∧ columnCell d name = .ok (.text s) := by
  rw [Dialect.column?] at h
  rw [column?]
  split at h
  · next hid =>
    cases h
    exact ⟨d.id, by rw [if_pos hid], rfl⟩
  · next hid =>
    split at h
    · next htype =>
      cases h
      exact ⟨d.docType, by rw [if_neg hid, if_pos htype], rfl⟩
    · cases h

theorem column?_eq_none (d : Document) {field : String} (h : Dialect.column? field = none) :
    d.column? field = none := by
  rw [Dialect.column?] at h
  rw [column?]
  split at h
  · cases h
  · next hid =>
    split at h
    · cases h
    · next htype => rw [if_neg hid, if_neg htype]

theorem evaluate_valueOperand (d : Document) (field : String) :
    (Dialect.sqlite.valueOperand field).evaluate d = d.fieldValue field := by
  rw [Dialect.valueOperand, fieldValue]
  cases h : Dialect.column? field with
  | some name =>
    obtain ⟨s, hs, hcell⟩ := d.columnCell_column? h
    rw [hs]
    exact hcell
  | none =>
    rw [d.column?_eq_none h]
    show extractMember d "->>" (Dialect.sqlitePath field) = _
    rw [extractMember, member?]
    cases followPath (Dialect.sqlitePath field) d.body <;> rfl

theorem evaluate_textOperand (d : Document) (field : String) :
    (Dialect.sqlite.textOperand field).evaluate d = d.fieldText field := by
  rw [Dialect.textOperand, fieldText]
  cases h : Dialect.column? field with
  | some name =>
    obtain ⟨s, hs, hcell⟩ := d.columnCell_column? h
    rw [hs]
    exact hcell
  | none =>
    rw [d.column?_eq_none h]
    show (do callFunction "sift_text" (← extractMember d "->" (Dialect.sqlitePath field))) = _
    rw [extractMember, member?]
    cases followPath (Dialect.sqlitePath field) d.body <;> rfl

theorem evaluate_numericOperand (d : Document) (field : String) :
    (Dialect.sqlite.numericOperand (Dialect.sqlite.valueOperand field)).evaluate d =
      d.fieldNumber field := by
  rw [Dialect.numericOperand, Operand.evaluate, evaluate_valueOperand, fieldNumber]
  cases d.fieldValue field <;> rfl

/-- **A test is the comparison that its text is read as.** -/
theorem evaluate_comparison (d : Document) (t : Test) :
    (t.comparison .sqlite).evaluate d = d.holds t := by
  cases t with
  | equals field value =>
    rw [Test.comparison, Comparison.evaluate, evaluate_textOperand]
    rfl
  | among field values =>
    rw [Test.comparison, Comparison.evaluate, evaluate_textOperand, boundValues_map_value]
    rfl
  | like field pattern =>
    rw [Test.comparison, Comparison.evaluate, evaluate_textOperand]
    rfl
  | compareText field op value =>
    rw [Test.comparison, Comparison.evaluate, evaluate_textOperand]
    cases op <;> rfl
  | compareNumber field op value =>
    rw [Test.comparison, Comparison.evaluate, evaluate_numericOperand]
    cases op <;> rfl
  | present field =>
    rw [Test.comparison, Comparison.evaluate, evaluate_valueOperand]
    rfl

/-! ### Whether a text selects a document -/

/-- A comparison as a decision: what is unknown counts as asked. -/
def decideComparison (d : Document) (c : Comparison) : Decision EvaluationError :=
  fun unknown => (c.evaluate d).map (·.getD unknown)

/-- Whether an expression holds on a document, from left to right; what is unknown
counts as asked. -/
def decide (d : Document) (e : Expr) : Decision EvaluationError :=
  e.meaning Decision.connectives d.decideComparison

/-- The text of a condition is true on a document: it is not false, not unknown, and
it does not fail.  The empty text selects every document. -/
def Selects (d : Document) (f : Fragment) : Prop :=
  f.sql = "" ∨ ∃ e, Expr.read f = some e ∧ d.decide e false = .ok true

/-- The text of a condition is false on a document: it is not true, not unknown, and
it does not fail. -/
def Rejects (d : Document) (f : Fragment) : Prop :=
  f.sql ≠ "" ∧ ∃ e, Expr.read f = some e ∧ d.decide e true = .ok false

/-- The text of a condition has a value on a document, be it unknown. -/
def Evaluates (d : Document) (f : Fragment) : Prop :=
  f.sql = "" ∨ ∃ e x, Expr.read f = some e ∧ d.decide e false = .ok x

/-- **The text of a tight condition decides as the condition does.** -/
theorem decide_render {c : Condition} (hc : c.Tight) (d : Document) :
    ∃ e, Expr.read (c.render .sqlite) = some e ∧
      d.decide e = c.meaning Decision.connectives (Condition.decideTest d.holds) := by
  obtain ⟨e, he, hmean⟩ := hc.read_render .sqlite
  refine ⟨e, he, ?_⟩
  have htests : (fun t : Test => d.decideComparison (t.comparison .sqlite)) =
      Condition.decideTest d.holds := by
    funext t unknown
    rw [decideComparison, evaluate_comparison]
    rfl
  rw [decide, hmean, htests]

end Document

end DocSearch
