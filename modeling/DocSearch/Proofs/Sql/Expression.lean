import DocSearch.Proofs.Sql.Connectives
import DocSearch.Proofs.Sql.Token
import DocSearch.Sql.Fragment

/-!
# Reading a condition from its text

A fragment is read the way a database reads it: its text is cut into tokens, each
placeholder takes the next value, and what stands between two parentheses is read on
its own.  Signs that extract a member bind tighter than comparisons, comparisons
tighter than `NOT`, `NOT` tighter than `AND`, and `AND` tighter than `OR`.  So a list
of items is cut at every `OR`, then at every `AND`, then `NOT` is taken off the front,
and what is left is one comparison, or one condition in parentheses.

## Main definitions

* `Operand`, `Comparison`, `Expr` — operands, comparisons and what joins them.
* `Item`, `readOr` — reading between parentheses.
* `Reader.step` — reading across parentheses.
* `Expr.read` — the expression that a fragment spells.
* `Expr.meaning`, `Expr.truth` — what an expression means.
-/

namespace DocSearch.Sql

/-! ### Expressions -/

/-- A side of a comparison. -/
inductive Operand where
  /-- A number. -/
  | number (n : Nat)
  /-- A column. -/
  | column (name : String)
  /-- A literal. -/
  | literal (s : String)
  /-- A bound value. -/
  | value (v : Value)
  /-- A member that is extracted with a sign. -/
  | extract (sign : String) (document path : Operand)
  /-- A function of an operand. -/
  | call (function : String) (argument : Operand)
  /-- An operand as another type. -/
  | cast (x : Operand) (type : String)
  deriving DecidableEq, Repr

/-- A comparison. -/
inductive Comparison where
  /-- Two operands compared with a sign. -/
  | compare (sign : String) (left right : Operand)
  /-- An operand matches a pattern. -/
  | like (x pattern escape : Operand)
  /-- An operand is one of several. -/
  | among (x : Operand) (items : List Operand)
  /-- An operand has a value. -/
  | notNull (x : Operand)
  deriving DecidableEq, Repr

/-- A condition as it is read. -/
inductive Expr where
  /-- A comparison. -/
  | comparison (c : Comparison)
  /-- A negation. -/
  | not (e : Expr)
  /-- A conjunction. -/
  | and (e f : Expr)
  /-- A disjunction. -/
  | or (e f : Expr)
  deriving DecidableEq, Repr

/-- The truth of a comparison that no row has a say in: two numbers. -/
def Comparison.constant? : Comparison → Option Bool
  | .compare "=" (.number m) (.number n) => some (m == n)
  | _ => none

/-- What a comparison means, given what those with a say of the row mean. -/
def Comparison.meaning {α : Type} (K : Connectives α) (holds : Comparison → α)
    (c : Comparison) : α :=
  match c.constant? with
  | some true => K.top
  | some false => K.bot
  | none => holds c

namespace Expr

variable {α : Type}

/-- What an expression means. -/
def meaning (K : Connectives α) (holds : Comparison → α) : Expr → α
  | comparison c => c.meaning K holds
  | not e => K.not (meaning K holds e)
  | and e f => K.and (meaning K holds e) (meaning K holds f)
  | or e f => K.or (meaning K holds e) (meaning K holds f)

/-- The truth of an expression, given the truth of its comparisons. -/
def truth (holds : Comparison → Truth) (e : Expr) : Truth := e.meaning Truth.connectives holds

/-- The conjunction of expressions. -/
def conjunction? : List Expr → Option Expr
  | [] => none
  | [e] => some e
  | e :: f :: es => (conjunction? (f :: es)).map e.and

/-- The disjunction of expressions. -/
def disjunction? : List Expr → Option Expr
  | [] => none
  | [e] => some e
  | e :: f :: es => (disjunction? (f :: es)).map e.or

end Expr

/-! ### Items between parentheses -/

/-- What stands between two parentheses, inner parentheses being read already. -/
inductive Item where
  /-- A token. -/
  | token (t : Token)
  /-- A bound value. -/
  | value (v : Value)
  /-- A condition in parentheses. -/
  | condition (e : Expr)
  /-- Operands in parentheses. -/
  | operands (xs : List Operand)
  deriving DecidableEq

/-- What an item does, from the loosest to the tightest. -/
inductive Role where
  /-- It separates operands. -/
  | comma
  /-- It joins alternatives. -/
  | or
  /-- It joins requirements. -/
  | and
  /-- It negates. -/
  | not
  /-- It compares. -/
  | comparison
  /-- It names the escape character of a pattern. -/
  | escape
  /-- It extracts a member. -/
  | extraction
  /-- It converts. -/
  | cast
  /-- It is part of an operand. -/
  | operand
  deriving DecidableEq

/-- What a word does; the case of letters does not count. -/
def wordRole (w : String) : Role :=
  let lower := Text.asciiLower w
  if lower = "or" then .or
  else if lower = "and" then .and
  else if lower = "not" then .not
  else if ["like", "in", "is"].contains lower then .comparison
  else if lower = "escape" then .escape
  else .operand

/-- What a sign does. -/
def signRole (s : String) : Role :=
  if ["=", "<>", "<", "<=", ">", ">="].contains s then .comparison
  else if ["->", "->>", "#>", "#>>"].contains s then .extraction
  else if s = "::" then .cast
  else .operand

/-- What an item does. -/
def Item.role : Item → Role
  | .token (.word w) => wordRole w
  | .token (.sign s) => signRole s
  | .token .comma => .comma
  | _ => .operand

/-- What stands before and behind the first item of a role, and the item. -/
def cutAt (r : Role) : List Item → Option (List Item × Item × List Item)
  | [] => none
  | i :: is =>
    if i.role = r then some ([], i, is)
    else (cutAt r is).map fun (before, x, behind) => (i :: before, x, behind)

/-! ### Reading between parentheses -/

/-- A bare word as an operand: a number if it starts with a digit, otherwise a column. -/
def readWord (w : String) : Option Operand :=
  match w.toList with
  | [] => none
  | c :: cs =>
    if c.isDigit then
      if cs.all Char.isDigit then some (.number (digitsValue (c :: cs))) else none
    else some (.column w)

/-- An operand without signs. -/
def readPrimary : List Item → Option Operand
  | [.token (.word w)] => readWord w
  | [.token (.name s)] => some (.column s)
  | [.token (.literal s)] => some (.literal s)
  | [.value v] => some (.value v)
  | [.operands [x]] => some x
  | [.token (.word f), .operands [x]] => some (.call f x)
  | _ => none

/-- An operand that may be converted. -/
def readCast (is : List Item) : Option Operand :=
  match cutAt .cast is with
  | none => readPrimary is
  | some (x, _, [.token (.word type)]) => (readPrimary x).map (.cast · type)
  | some _ => none

/-- An operand. -/
def readOperand (is : List Item) : Option Operand :=
  match cutAt .extraction is with
  | some (x, .token (.sign s), path) => do return .extract s (← readCast x) (← readCast path)
  | _ => readCast is

/-- A comparison of `x` by a word with what stands behind the word. -/
def readWordComparison (x : Operand) (word : String) (behind : List Item) : Option Comparison :=
  let lower := Text.asciiLower word
  if lower = "like" then
    match cutAt .escape behind with
    | some (pattern, _, escape) => do return .like x (← readOperand pattern) (← readOperand escape)
    | none => none
  else if lower = "in" then
    match behind with
    | [.operands xs] => some (.among x xs)
    | _ => none
  else
    match behind with
    | [.token (.word n), .token (.word null)] =>
      if wordRole n = .not ∧ Text.asciiLower null = "null" then some (.notNull x) else none
    | _ => none

/-- A comparison, or a condition in parentheses. -/
def readComparison (is : List Item) : Option Expr :=
  match cutAt .comparison is with
  | some (left, .token (.sign s), right) => do
    return .comparison (.compare s (← readOperand left) (← readOperand right))
  | some (left, .token (.word w), behind) => do
    return .comparison (← readWordComparison (← readOperand left) w behind)
  | some _ => none
  | none =>
    match is with
    | [.condition e] => some e
    | _ => none

/-- What `NOT` applies to, with every `NOT` before it. -/
def readNot : List Item → Option Expr
  | [] => none
  | i :: is => if i.role = .not then (readNot is).map .not else readComparison (i :: is)

/-- Requirements, cut at every `AND`. -/
def readAnd (is : List Item) : Option Expr :=
  (is.splitOnP fun i => decide (i.role = .and)).mapM readNot >>= Expr.conjunction?

/-- Alternatives, cut at every `OR`. -/
def readOr (is : List Item) : Option Expr :=
  (is.splitOnP fun i => decide (i.role = .or)).mapM readAnd >>= Expr.disjunction?

/-- What stands in parentheses: a condition, or operands with commas between them. -/
def readGroup (is : List Item) : Option Item :=
  match readOr is with
  | some e => some (.condition e)
  | none => ((is.splitOnP fun i => decide (i.role = .comma)).mapM readOperand).map .operands

/-! ### Reading across parentheses -/

/-- How far a text has been read. -/
structure Reader where
  /-- The values that have not been bound. -/
  values : List Value
  /-- What was read before each open parenthesis, the innermost first. -/
  outer : List (List Item) := []
  /-- What has been read behind the innermost one. -/
  items : List Item := []

/-- Read a token. -/
def Reader.step (r : Reader) : Token → Option Reader
  | .opening => some ⟨r.values, r.items :: r.outer, []⟩
  | .closing =>
    match r.outer with
    | [] => none
    | items :: outer => (readGroup r.items).map fun i => ⟨r.values, outer, items ++ [i]⟩
  | .placeholder =>
    match r.values with
    | [] => none
    | v :: values => some ⟨values, r.outer, r.items ++ [.value v]⟩
  | t => some ⟨r.values, r.outer, r.items ++ [.token t]⟩

/-- The expression of a text that has been read to its end: no value is left, and no
parenthesis is open. -/
def Reader.finish : Reader → Option Expr
  | ⟨[], [], items⟩ => readOr items
  | _ => none

/-- The expression that a fragment spells. -/
def Expr.read (f : Fragment) : Option Expr := do
  let tokens ← tokenize f.sql
  let r ← tokens.foldlM Reader.step { values := f.params }
  r.finish

end DocSearch.Sql
