import DocSearch.Proofs.Query.Faithful
import DocSearch.Proofs.Sql.Template
import DocSearch.Query.Compile

/-!
# When a predicate has a text

The one thing that a predicate can be refused for is a threshold.  A boolean node that has
alternatives is refused if the number of those that are enough cannot be read or is not
one; a node without alternatives is never refused, whatever its threshold says.  The nodes
are looked at in a fixed order, in which a node comes behind what is in its first three
groups and before what is in its alternatives.  What is refused is refused for the first
such node, even if the group that it is in would be left out.

None of this depends on the dialect.  So a predicate has a text in both dialects or in
none, and then fails alike; and its two texts are one template.

## Main definitions

* `BoolClauses.Refused` — a boolean node is refused with some error.
* `Predicate.boolNodes` — the boolean nodes in the order in which they are looked at.
* `Predicate.textFor` — the text of a predicate in a dialect.

## Main results

* `BoolClauses.refusal?_eq_some` — the check of a threshold refuses what is to be refused.
* `Predicate.failure?_compile` — the error is that of the first node that is refused.
* `Predicate.textFor_alike` — **the dialects agree**, on every predicate.
-/

namespace DocSearch

open Sql Steps

/-! ### What a step fails with -/

namespace Steps

variable {ε α β : Type}

/-- What a step fails with, if it fails. -/
def failure? : Except ε α → Option ε
  | .ok _ => none
  | .error e => some e

theorem failure?_eq_some {x : Except ε α} {e : ε} : failure? x = some e ↔ x = .error e := by
  cases x <;> simp [failure?]

theorem failure?_map (x : Except ε α) (f : α → β) : failure? (x.map f) = failure? x := by
  cases x <;> rfl

/-- Two steps fail with the failure of the first one, or else of the second one, if that
does not depend on what the first one gives. -/
theorem failure?_bind {x : Except ε α} {f : α → Except ε β} {later : Option ε}
    (h : ∀ a, failure? (f a) = later) : failure? (x >>= f) = (failure? x).or later := by
  cases x with
  | error e => rfl
  | ok a => exact h a

theorem failure?_bind_pure (x : Except ε α) (f : α → β) :
    failure? (x >>= fun a => pure (f a)) = failure? x := by
  cases x <;> rfl

end Steps

/-! ### Thresholds -/

namespace BoolClauses

variable {α : Type} {clauses : BoolClauses α} {e : QueryError}

/-- A boolean node is refused: it has alternatives, and how many of them are enough cannot
be read, or is not one. -/
inductive Refused (clauses : BoolClauses α) : QueryError → Prop where
  | unreadable {raw : String} (hshould : clauses.should ≠ [])
      (hraw : clauses.minimumShouldMatch = some raw)
      (hread : ∀ n, requiredMatches (some raw) clauses.should.length ≠ .ok n) :
      Refused clauses (.invalidThreshold (Text.trim raw))
  | unsupported {n : Int64} (hshould : clauses.should ≠ [])
      (hread : requiredMatches clauses.minimumShouldMatch clauses.should.length = .ok n)
      (hn : n ≠ 1) : Refused clauses (.unsupportedThreshold n)

/-- What a boolean node is refused with, if it is refused. -/
def refusal? (clauses : BoolClauses α) : Option QueryError :=
  failure? (checkThreshold clauses.minimumShouldMatch clauses.should.length)

/-- A threshold that cannot be read is named without the blanks around it. -/
theorem requiredMatches_eq_error {raw : Option String} {count : Nat}
    (h : requiredMatches raw count = .error e) :
    ∃ text, raw = some text ∧ e = .invalidThreshold (Text.trim text) := by
  cases raw with
  | none => cases h
  | some text =>
    refine ⟨text, rfl, ?_⟩
    simp only [requiredMatches] at h
    split at h
    · split at h
      · cases h
        rfl
      · cases h
    · split at h
      · cases h
        rfl
      · cases h

theorem not_refused_of_nil (hshould : clauses.should = []) : ¬ clauses.Refused e := by
  rintro (⟨hne, -, -⟩ | ⟨hne, -, -⟩)
  · exact hne hshould
  · exact hne hshould

/-- A node whose threshold cannot be read is refused for just that. -/
theorem refused_iff_of_error {e' : QueryError} (hshould : clauses.should ≠ [])
    (h : requiredMatches clauses.minimumShouldMatch clauses.should.length = .error e') :
    clauses.Refused e ↔ e' = e := by
  obtain ⟨raw, hraw, rfl⟩ := requiredMatches_eq_error h
  constructor
  · rintro (⟨-, hraw', -⟩ | ⟨-, hread, -⟩)
    · rw [hraw, Option.some.injEq] at hraw'
      rw [hraw']
    · rw [h] at hread
      cases hread
  · rintro rfl
    refine .unreadable hshould hraw ?_
    intro n hn
    rw [← hraw, h] at hn
    cases hn

/-- A node whose threshold is read is refused if it is not one. -/
theorem refused_iff_of_ok {n : Int64} (hshould : clauses.should ≠ [])
    (h : requiredMatches clauses.minimumShouldMatch clauses.should.length = .ok n) :
    clauses.Refused e ↔ n ≠ 1 ∧ .unsupportedThreshold n = e := by
  constructor
  · rintro (⟨-, hraw, hread⟩ | ⟨-, hread, hn⟩)
    · rw [hraw] at h
      exact absurd h (hread n)
    · rw [h] at hread
      cases hread
      exact ⟨hn, rfl⟩
  · rintro ⟨hn, rfl⟩
    exact .unsupported hshould h hn

/-- **The check refuses what is to be refused**, and with the same error. -/
theorem refusal?_eq_some : clauses.refusal? = some e ↔ clauses.Refused e := by
  unfold refusal? checkThreshold
  rw [failure?_eq_some]
  by_cases hshould : clauses.should = []
  · -- there are no alternatives, so the threshold is not read
    rw [if_pos (by rw [hshould]; rfl)]
    exact iff_of_false (by simp) (not_refused_of_nil hshould)
  · rw [if_neg (by rwa [List.length_eq_zero_iff])]
    cases hread : requiredMatches clauses.minimumShouldMatch clauses.should.length with
    | error e' =>
      rw [refused_iff_of_error hshould hread]
      simp [bind, Except.bind]
    | ok n =>
      rw [refused_iff_of_ok hshould hread]
      by_cases hn : n = 1 <;> simp [bind, Except.bind, hn]

end BoolClauses

/-! ### Boolean nodes -/

namespace Predicate

mutual

/-- The boolean nodes of a predicate in the order in which their thresholds are looked at:
those under `must`, `filter` and `must_not`, the node itself, and those under `should`. -/
def boolNodes : Predicate → List (BoolClauses Predicate)
  | .bool ⟨must, filter, mustNot, should, minimumShouldMatch⟩ =>
    boolNodesOf must ++ (boolNodesOf filter ++ (boolNodesOf mustNot ++
      ⟨must, filter, mustNot, should, minimumShouldMatch⟩ :: boolNodesOf should))
  | _ => []

/-- The boolean nodes of several predicates, one after the other. -/
def boolNodesOf : List Predicate → List (BoolClauses Predicate)
  | [] => []
  | p :: ps => boolNodes p ++ boolNodesOf ps

end

mutual

/-- The boolean nodes are those anywhere in the predicate. -/
theorem mem_boolNodes : ∀ {p : Predicate} {clauses : BoolClauses Predicate},
    clauses ∈ p.boolNodes ↔ .bool clauses ∈ p.nodes
  | .bool ⟨must, filter, mustNot, should, minimumShouldMatch⟩, clauses => by
    simp only [boolNodes, nodes, List.mem_cons, List.mem_append, mem_boolNodesOf, bool.injEq]
    constructor
    · rintro (h | h | h | h | h) <;> simp [h]
    · rintro (h | ((h | h) | h) | h) <;> simp [h]
  | .matchAll, _ | .term _ _ _, _ | .docType _ _, _ | .ids _ _, _ | .fullText _ _ _, _
  | .multiField _ _, _ | .terms _ _, _ | .range _ _, _ | .present _, _ | .startsWith _ _, _ => by
    simp [boolNodes, nodes]

theorem mem_boolNodesOf : ∀ {ps : List Predicate} {clauses : BoolClauses Predicate},
    clauses ∈ boolNodesOf ps ↔ .bool clauses ∈ nodesOf ps
  | [], _ => by simp [boolNodesOf, nodesOf]
  | p :: ps, clauses => by
    simp only [boolNodesOf, nodesOf, List.mem_append, mem_boolNodes, mem_boolNodesOf]

end

mutual

/-- **The error is that of the first node that is refused.** -/
theorem failure?_compile : ∀ p : Predicate, failure? p.compile = p.boolNodes.findSome? (·.refusal?)
  | .bool ⟨must, filter, mustNot, should, minimumShouldMatch⟩ => by
    rw [compile, boolNodes, List.findSome?_append, List.findSome?_append, List.findSome?_append,
      ← failure?_compileList must, ← failure?_compileList filter, ← failure?_compileList mustNot]
    -- no step after the first three depends on what they give
    refine failure?_bind fun must => failure?_bind fun filter => failure?_bind fun mustNot => ?_
    have hcons : ∀ (node : BoolClauses Predicate) (rest : List (BoolClauses Predicate)),
        (node :: rest).findSome? (·.refusal?) =
          node.refusal?.or (rest.findSome? (·.refusal?)) := by
      intro node rest
      rw [List.findSome?_cons]
      cases node.refusal? <;> rfl
    rw [hcons, ← failure?_compileList should]
    exact failure?_bind fun _ => failure?_bind_pure _ _
  | .matchAll | .term _ _ _ | .docType _ _ | .ids _ _ | .fullText _ _ _ | .multiField _ _
  | .terms _ _ | .range _ _ | .present _ | .startsWith _ _ => by
    simp only [compile, boolNodes]
    rfl

theorem failure?_compileList : ∀ ps : List Predicate,
    failure? (compileList ps) = (boolNodesOf ps).findSome? (·.refusal?)
  | [] => rfl
  | p :: ps => by
    rw [compileList, boolNodesOf, List.findSome?_append, ← failure?_compile p,
      ← failure?_compileList ps]
    exact failure?_bind fun _ => failure?_bind_pure _ _

end

/-- The error of a predicate is that of a node that is refused with none before it. -/
theorem compile_eq_error_iff {p : Predicate} {e : QueryError} :
    p.compile = .error e ↔ ∃ before clauses after, p.boolNodes = before ++ clauses :: after ∧
      clauses.Refused e ∧ ∀ c ∈ before, ∀ e', ¬ c.Refused e' := by
  rw [← failure?_eq_some, failure?_compile, List.findSome?_eq_some_iff]
  have hbefore : ∀ c : BoolClauses Predicate, c.refusal? = none ↔ ∀ e', ¬ c.Refused e' := by
    intro c
    simp only [← BoolClauses.refusal?_eq_some, Option.eq_none_iff_forall_ne_some, ne_eq]
  simp only [BoolClauses.refusal?_eq_some, hbefore]

/-- A predicate is refused if one of its boolean nodes is. -/
theorem exists_compile_eq_error_iff {p : Predicate} :
    (∃ e, p.compile = .error e) ↔ ∃ clauses e, .bool clauses ∈ p.nodes ∧ clauses.Refused e := by
  simp only [← failure?_eq_some, failure?_compile, ← Option.isSome_iff_exists,
    List.findSome?_isSome_iff, mem_boolNodes]
  simp only [Option.isSome_iff_exists, BoolClauses.refusal?_eq_some, exists_and_left]

/-! ### Both dialects -/

/-- The text of a predicate in a dialect. -/
def textFor (d : Dialect) (p : Predicate) : Except QueryError Fragment :=
  p.compile.map (Condition.render? d)

theorem textFor_eq_error_iff {p : Predicate} {d : Dialect} {e : QueryError} :
    p.textFor d = .error e ↔ p.compile = .error e := by
  rw [← failure?_eq_some, ← failure?_eq_some, textFor, failure?_map]

/-- **The dialects agree.**  A predicate has no text in a dialect if and only if one of its
boolean nodes, wherever it stands, has alternatives and a threshold that cannot be read or
is not one.  The error is that of the first such node, in every dialect.  If there are
texts, they are one template, filled with the expressions of the dialect, and bind the same
values. -/
theorem textFor_alike (p : Predicate) :
    (∀ d, (∃ e, p.textFor d = .error e) ↔
      ∃ clauses e, .bool clauses ∈ p.nodes ∧ clauses.Refused e) ∧
    (∀ d e, p.textFor d = .error e ↔
      ∃ before clauses after, p.boolNodes = before ++ clauses :: after ∧ clauses.Refused e ∧
        ∀ c ∈ before, ∀ e', ¬ c.Refused e') ∧
    ((∃ e, ∀ d, p.textFor d = .error e) ∨
      ∃ t : Template, ∀ d, p.textFor d = .ok (t.fill d.expression)) := by
  refine ⟨fun d => ?_, fun d e => ?_, ?_⟩
  · simp only [textFor_eq_error_iff]
    exact exists_compile_eq_error_iff
  · rw [textFor_eq_error_iff]
    exact compile_eq_error_iff
  · cases hcompile : p.compile with
    | error e => exact .inl ⟨e, fun d => textFor_eq_error_iff.mpr hcompile⟩
    | ok c =>
      obtain ⟨t, ht⟩ := Condition.oneTemplate_render? c
      refine .inr ⟨t, fun d => ?_⟩
      rw [textFor, hcompile, ← ht]
      rfl

end Predicate

end DocSearch
