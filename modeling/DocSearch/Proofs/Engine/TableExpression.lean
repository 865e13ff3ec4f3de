import DocSearch.Engine.Source
import DocSearch.Proofs.Query.Hollow

/-!
# Table expressions

What follows `FROM` in a statement is a selection in parentheses: columns, the selections
from single tables that `UNION ALL` puts one after the other, and a condition behind
`WHERE`.  The condition is read like any other, so what binds tighter in it is read first.

The restriction to types and the filter are joined by `AND` without parentheses.  They are
still read as two wholes, because no compiled condition has an `OR` that stands outside
parentheses.

## Main definitions

* `TableExpression`, `readTable` — a table expression as it is read.
* `Expr.read?` — the expression of a fragment that may have no text.

## Main results

* `read_condition` — the types and the filter are read as wholes.
* `Source.read_documents` — **what the documents of a search are read as**.
-/

namespace DocSearch

namespace Sql

/-! ### Reading a table expression -/

/-- A selection from one table. -/
structure Selected where
  /-- What each column holds, and what it is called. -/
  columns : List (Token × String)
  /-- The table. -/
  table : String
  deriving DecidableEq

/-- A table expression as it is read. -/
structure TableExpression where
  /-- What each column holds, and what it is called. -/
  columns : List (Token × String)
  /-- The selections whose rows are taken one after the other; if nothing is selected
  from, there is a single row. -/
  rows : Option (List Selected)
  /-- What a row has to meet. -/
  condition : Option Expr
  deriving DecidableEq

/-- A column, which is called as it is unless it is given a name. -/
def readColumn : List Token → Option (Token × String)
  | [.word c] => some (.word c, c)
  | [t, .word "AS", .word c] => some (t, c)
  | _ => none

/-- Columns with commas between them. -/
def readColumns (ts : List Token) : Option (List (Token × String)) :=
  (ts.splitOnP fun t => decide (t = .comma)).mapM readColumn

/-- A selection from one table, behind the word that joins it to the one before. -/
def readSelected : List Token → Option Selected
  | .word "ALL" :: .word "SELECT" :: ts =>
    match ts.splitOnP fun t => decide (t = .word "FROM") with
    | [columns, [.name table]] => (readColumns columns).map fun cs => ⟨cs, table⟩
    | _ => none
  | _ => none

/-- Selections with `UNION ALL` between them; the first one is read as the others are. -/
def readUnion (ts : List Token) : Option (List Selected) :=
  ((.word "ALL" :: ts).splitOnP fun t => decide (t = .word "UNION")).mapM readSelected

/-- The expression of a fragment that may have no text. -/
def Expr.read? (f : Fragment) : Option (Option Expr) :=
  if f.isEmpty then some none else (Expr.read f).map some

/-- What follows the source of the rows; the values are those of the condition. -/
def readWhere (values : List Value) : List Token → Option (Option Expr)
  | [] => if values.isEmpty then some none else none
  | .word "WHERE" :: ts => ((ts.foldlM Reader.step { values }).bind Reader.finish).map some
  | _ => none

/-- Whether a word ends the columns. -/
def endsColumns (t : Token) : Bool := t = .word "FROM" || t = .word "WHERE"

/-- What stands between the parentheses of a table expression. -/
def readSelection (values : List Value) : List Token → Option TableExpression
  | .word "SELECT" :: ts => do
    let columns ← readColumns (ts.takeWhile (!endsColumns ·))
    match ts.dropWhile (!endsColumns ·) with
    | .word "FROM" :: .opening :: us => do
      let rows ← readUnion (us.takeWhile (· ≠ .closing))
      match us.dropWhile (· ≠ .closing) with
      | .closing :: .word "AS" :: .word _ :: rest =>
        (readWhere values rest).map fun e => ⟨columns, some rows, e⟩
      | _ => none
    | rest => (readWhere values rest).map fun e => ⟨columns, none, e⟩
  | _ => none

/-- A table expression in parentheses with a name behind it. -/
def readTable (f : Fragment) : Option TableExpression := do
  match ← tokenize f.sql with
  | .opening :: ts =>
    match ts.reverse with
    | .word _ :: .word "AS" :: .closing :: us => readSelection f.params us.reverse
    | _ => none
  | _ => none

end Sql

open Sql

/-! ### The rows of the targets -/

namespace Target

/-- What the rows of a target are read as. -/
def selected (t : Target) : Selected :=
  ⟨[(.literal t.index, "sift_index"), (.word "id", "id"), (.word "type", "type"),
    (.word "doc", "doc")], t.table⟩

/-- The tokens of the columns and the table of a target. -/
def tokens (t : Target) : List Token :=
  [.word "SELECT", .literal t.index, .word "AS", .word "sift_index", .comma, .word "id", .comma,
    .word "type", .comma, .word "doc", .word "FROM", .name t.table]

theorem tokenize_targetRows (t : Target) : tokenize (targetRows t) = some t.tokens := by
  have hselect : scan .gap "SELECT ".toList = ([.word "SELECT"], .gap) := by rfl
  have hcolumns : scan .gap " AS sift_index, id, type, doc FROM ".toList =
      ([.word "AS", .word "sift_index", .comma, .word "id", .comma, .word "type", .comma,
        .word "doc", .word "FROM"], .gap) := by rfl
  have htable := tokenize_append_of_gap hcolumns (tokenize_enquote .double t.table)
  have hbreak : startsWithBreak (" AS sift_index, id, type, doc FROM " ++
      enquote Quote.double.char t.table) = true := startsWithBreak_append (by rfl) (by decide) _
  rw [targetRows, String.append_assoc, String.append_assoc]
  exact tokenize_append_of_gap hselect
    (tokenize_append (tokenize_quoteLiteral t.index) htable hbreak)

theorem readSelected_tokens (t : Target) :
    readSelected (.word "ALL" :: t.tokens) = some t.selected := by
  rfl

/-- The tokens of the rows of several targets. -/
def unionTokens : List Target → List Token
  | [] => []
  | [t] => t.tokens
  | t :: u :: ts => t.tokens ++ .word "UNION" :: .word "ALL" :: unionTokens (u :: ts)

theorem tokenize_union {targets : List Target} (hne : targets ≠ []) :
    tokenize (Text.joinWith " UNION ALL " (targets.map targetRows)) =
      some (unionTokens targets) := by
  induction targets using unionTokens.induct with
  | case1 => exact absurd rfl hne
  | case2 t => exact tokenize_targetRows t
  | case3 t u ts ih =>
    have hunion : scan .gap " UNION ALL ".toList = ([.word "UNION", .word "ALL"], .gap) := by rfl
    have hrest := tokenize_append_of_gap hunion (ih (by simp))
    have hbreak := startsWithBreak_append (s := " UNION ALL ") (by rfl) (by decide)
      (Text.joinWith " UNION ALL " ((u :: ts).map targetRows))
    have happend := tokenize_append (tokenize_targetRows t) hrest hbreak
    rwa [← String.append_assoc] at happend

theorem readUnion_unionTokens {targets : List Target} (hne : targets ≠ []) :
    readUnion (unionTokens targets) = some (targets.map selected) := by
  have hsingle : ∀ t : Target, ((Token.word "ALL" :: t.tokens).splitOnP
      fun u => decide (u = .word "UNION")) = [.word "ALL" :: t.tokens] := by
    intro t
    exact List.splitOnP_eq_singleton (by simp [tokens])
  induction targets using unionTokens.induct with
  | case1 => exact absurd rfl hne
  | case2 t =>
    rw [unionTokens, readUnion, hsingle]
    simp [readSelected_tokens]
  | case3 t u ts ih =>
    have hsplit := List.splitOnP_append_cons (p := fun v : Token => decide (v = .word "UNION"))
      (.word "ALL" :: t.tokens) (.word "ALL" :: unionTokens (u :: ts))
      (decide_eq_true (Eq.refl (Token.word "UNION")))
    have hrest := ih (by simp)
    rw [readUnion] at hrest
    rw [unionTokens, readUnion, ← List.cons_append, hsplit, hsingle, List.mapM_append, hrest]
    simp [readSelected_tokens]

theorem closing_not_mem_unionTokens (targets : List Target) : .closing ∉ unionTokens targets := by
  induction targets using unionTokens.induct with
  | case1 => simp [unionTokens]
  | case2 t => simp [unionTokens, tokens]
  | case3 t u ts ih => simp [unionTokens, tokens, ih]

end Target

/-! ### Documents as a table expression -/

/-- The columns of documents. -/
def documentColumns : List (Token × String) :=
  ["sift_index", "id", "type", "doc"].map fun c => (.word c, c)

/-- The tokens in front of the rows of the targets. -/
def documentTokens : List Token :=
  [.word "SELECT", .word "sift_index", .comma, .word "id", .comma, .word "type", .comma,
    .word "doc", .word "FROM", .opening]

theorem readSelection_documents {targets : List Target} (hne : targets ≠ []) (values : List Value)
    (rest : List Token) :
    readSelection values (documentTokens ++ Target.unionTokens targets ++
        .closing :: .word "AS" :: .word "src" :: rest) =
      (readWhere values rest).map fun e =>
        ⟨documentColumns, some (targets.map Target.selected), e⟩ := by
  have hunion : ∀ t ∈ Target.unionTokens targets, decide (t ≠ .closing) = true := by
    intro t ht
    refine decide_eq_true ?_
    rintro rfl
    exact Target.closing_not_mem_unionTokens targets ht
  have htake : (Target.unionTokens targets ++ .closing :: .word "AS" :: .word "src" ::
      rest).takeWhile (fun t => decide (t ≠ .closing)) = Target.unionTokens targets := by
    rw [List.takeWhile_append_of_pos hunion]
    simp
  have hdrop : (Target.unionTokens targets ++ .closing :: .word "AS" :: .word "src" ::
      rest).dropWhile (fun t => decide (t ≠ .closing)) =
        .closing :: .word "AS" :: .word "src" :: rest := by
    rw [List.dropWhile_append_of_pos hunion]
    simp
  -- the columns end where the word `FROM` stands, whatever is behind it
  have hcolumns : ∀ us, readSelection values (documentTokens ++ us) =
      (readUnion (us.takeWhile fun t => decide (t ≠ .closing))).bind fun rows =>
        match us.dropWhile fun t => decide (t ≠ .closing) with
        | .closing :: .word "AS" :: .word _ :: rest =>
          (readWhere values rest).map fun e => ⟨documentColumns, some rows, e⟩
        | _ => none := by
    intro us
    have hread : readColumns [.word "sift_index", .comma, .word "id", .comma, .word "type",
        .comma, .word "doc"] = some documentColumns := by rfl
    simp [documentTokens, readSelection, endsColumns, hread]
  rw [List.append_assoc, hcolumns, htake, hdrop, Target.readUnion_unionTokens hne]
  rfl

theorem readTable_of_tokenize {sql name : String} {us : List Token}
    (h : tokenize sql = some (.opening :: us ++ [.closing, .word "AS", .word name]))
    (values : List Value) : readTable ⟨sql, values⟩ = readSelection values us := by
  simp [readTable, h]

/-- The tokens of the documents of some targets with a restriction behind. -/
theorem tokenize_documents {targets : List Target} (hne : targets ≠ []) {restriction : String}
    {ts : List Token} (h : tokenize restriction = some ts)
    (hbreak : startsWithBreak restriction = true) :
    tokenize ("(SELECT sift_index, id, type, doc FROM (" ++
        Text.joinWith " UNION ALL " (targets.map targetRows) ++ ") AS src" ++ restriction ++
        ") AS q") =
      some (.opening :: (documentTokens ++ Target.unionTokens targets ++
        .closing :: .word "AS" :: .word "src" :: ts) ++ [.closing, .word "AS", .word "q"]) := by
  have hstart : scan .gap "(SELECT sift_index, id, type, doc FROM (".toList =
      (.opening :: documentTokens, .gap) := by rfl
  have hsource : tokenize ") AS src" = some [.closing, .word "AS", .word "src"] := by rfl
  have hend : tokenize ") AS q" = some [.closing, .word "AS", .word "q"] := by rfl
  have hunion := tokenize_append_of_gap hstart (Target.tokenize_union hne)
  have hrows := tokenize_append hunion hsource (by rfl)
  have hall := tokenize_append (tokenize_append hrows h hbreak) hend (by rfl)
  rw [hall]
  simp

/-- What is read behind the rows of the targets. -/
theorem readTable_of_restriction {targets : List Target} (hne : targets ≠ [])
    {restriction : String} {ts : List Token} (h : tokenize restriction = some ts)
    (hbreak : startsWithBreak restriction = true) (values : List Value) :
    readTable ⟨"(SELECT sift_index, id, type, doc FROM (" ++
        Text.joinWith " UNION ALL " (targets.map targetRows) ++ ") AS src" ++ restriction ++
        ") AS q", values⟩ =
      (readWhere values ts).map fun e =>
        ⟨documentColumns, some (targets.map Target.selected), e⟩ := by
  rw [readTable_of_tokenize (tokenize_documents hne h hbreak) values, readSelection_documents hne]

/-! ### The joined condition -/

/-- Of two texts one may be missing. -/
theorem Sql.Fragment.join_pair (separator : String) (f g : Fragment) :
    Fragment.join separator [f, g] =
      if f.isEmpty then (if g.isEmpty then .empty else g)
      else if g.isEmpty then f else f.push separator ++ g := by
  cases hf : f.isEmpty <;> cases hg : g.isEmpty <;> simp [Fragment.join, Fragment.chain, hf, hg]

theorem Sql.Fragment.params_of_isEmpty_join {separator : String} {f g : Fragment}
    (h : (Fragment.join separator [f, g]).isEmpty = true) :
    (Fragment.join separator [f, g]).params = [] := by
  rw [join_pair] at h ⊢
  cases hf : f.isEmpty <;> cases hg : g.isEmpty <;> simp_all [isEmpty, empty, push]

/-- **The documents of some targets**: their rows one after the other, restricted as the joined
condition is read. -/
theorem readTable_documentsFragment {targets : List Target} (hne : targets ≠ [])
    {types : List String} {filter condition : Fragment}
    (hcondition : Fragment.join " AND " [typeFilter types, filter] = condition)
    (hspells : Spells [] condition) :
    (documentsFragment targets types filter).params = condition.params ∧
      readTable (documentsFragment targets types filter) =
        (Expr.read? condition).map fun e =>
          ⟨documentColumns, some (targets.map Target.selected), e⟩ := by
  obtain ⟨ts, hts, -⟩ := hspells
  have happend : ∀ (s t : String) (f : Fragment),
      Fragment.raw s ++ f ++ Fragment.raw t = ⟨s ++ f.sql ++ t, f.params⟩ := by
    intro s t f
    show Fragment.mk _ ([] ++ f.params ++ []) = _
    rw [List.nil_append, List.append_nil]
    rfl
  simp only [documentsFragment, List.isEmpty_iff, if_neg hne, hcondition, happend, Expr.read?]
  by_cases hempty : condition.isEmpty = true
  · have hsql : condition.sql = "" := by simpa [Fragment.isEmpty] using hempty
    have hparams : condition.params = [] := by
      subst hcondition
      exact Fragment.params_of_isEmpty_join hempty
    rw [if_pos hempty, if_pos hempty, hsql, hparams]
    have htokens : tokenize "" = some [] := rfl
    exact ⟨rfl, readTable_of_restriction hne htokens rfl []⟩
  · -- the word in front of the condition is no part of it
    have hwhere : scan .gap " WHERE ".toList = ([.word "WHERE"], .gap) := by rfl
    have htokens := tokenize_append_of_gap hwhere hts
    have hread := readTable_of_restriction hne htokens
      (startsWithBreak_append (by rfl) (by decide) _) condition.params
    rw [if_neg hempty, if_neg hempty]
    refine ⟨rfl, hread.trans ?_⟩
    simp [readWhere, Expr.read, hts]

/-- Requirements at the end may be one requirement. -/
theorem Sql.Expr.conjunction?_append {es : List Expr} {e : Expr}
    (he : Expr.conjunction? es = some e) (ts : List Expr) :
    Expr.conjunction? (ts ++ es) = Expr.conjunction? (ts ++ [e]) := by
  have hcons : ∀ (t : Expr) {us : List Expr}, us ≠ [] →
      Expr.conjunction? (t :: us) = (Expr.conjunction? us).map (Expr.and t) := by
    intro t us hne
    cases us with
    | nil => exact absurd rfl hne
    | cons u us => rfl
  have hne : es ≠ [] := by
    rintro rfl
    cases he
  induction ts with
  | nil => exact he
  | cons t ts ih =>
    rw [List.cons_append, List.cons_append, hcons t (by simp [hne]), hcons t (by simp), ih]

theorem Sql.Fragment.isEmpty_eq_false {f : Fragment} (hf : f.sql ≠ "") : f.isEmpty = false := by
  simpa [isEmpty] using hf

theorem Sql.Expr.read?_of_sql_ne {f : Fragment} (hf : f.sql ≠ "") :
    Expr.read? f = (Expr.read f).map some := by
  rw [read?, Fragment.isEmpty_eq_false hf]
  rfl

/-- Requirements are read as their conjunction. -/
theorem Sql.Requires.read? {f : Fragment} {es : List Expr} {e : Expr} (hf : Requires f es)
    (he : Expr.conjunction? es = some e) : Expr.read? f = some (some e) := by
  rw [Expr.read?_of_sql_ne hf.sql_ne, (hf.offers he).read]
  rfl

theorem Sql.Requires.spells {f : Fragment} {es : List Expr} (hf : Requires f es) : Spells [] f := by
  obtain ⟨is, hshow, -⟩ := hf
  exact hshow.spells

/-- What the restriction to types is read as. -/
def typeTests (types : List String) : List Expr :=
  if types.isEmpty then []
  else [.comparison (.among (.column "type") (types.map fun t => .value (.text t)))]

section Restriction

variable {types : List String} {filter : Fragment}

theorem requires_typeFilter (hne : types ≠ []) : Requires (typeFilter types) (typeTests types) := by
  have hread := (Test.among "_type" (types.map Value.text)).requires_render .sqlite
    (by simpa [Test.IsReadable] using hne)
  have hitems : (types.map Value.text).map Operand.value = types.map fun t => .value (.text t) := by
    simp
  have htext : (Test.among "_type" (types.map Value.text)).render .sqlite = typeFilter types := by
    rw [Test.render, List.length_map, typeFilter, if_neg (by simpa using hne)]
    rfl
  rw [htext, Test.comparison, hitems] at hread
  rw [typeTests, if_neg (by simpa using hne)]
  exact hread

theorem isEmpty_typeFilter (types : List String) :
    (typeFilter types).isEmpty = types.isEmpty := by
  by_cases hne : types = []
  · subst hne
    rfl
  · rw [Fragment.isEmpty_eq_false (requires_typeFilter hne).sql_ne]
    simpa using hne

theorem params_typeFilter (types : List String) : (typeFilter types).params = types.map .text := by
  cases types <;> rfl

/-- The values of the types stand before those of the filter. -/
theorem params_condition (hfilter : filter.isEmpty = true → filter.params = []) :
    (Fragment.join " AND " [typeFilter types, filter]).params =
      types.map .text ++ filter.params := by
  rw [Fragment.join_pair, isEmpty_typeFilter, ← params_typeFilter]
  split
  case isTrue htypes =>
    rw [List.isEmpty_iff.mp htypes]
    split
    · rw [hfilter ‹_›]
      rfl
    · rfl
  case isFalse =>
    split
    · rw [hfilter ‹_›, List.append_nil]
    · rfl

/-- The types and the filter are requirements that are joined. -/
theorem requires_condition {es : List Expr} (hfilter : Requires filter es) :
    Requires (Fragment.join " AND " [typeFilter types, filter]) (typeTests types ++ es) := by
  rw [Fragment.join_pair, isEmpty_typeFilter, Fragment.isEmpty_eq_false hfilter.sql_ne]
  cases types with
  | nil => exact hfilter
  | cons t types => exact (requires_typeFilter (by simp)).joined hfilter

/-- Without a filter the types are the only requirement. -/
theorem condition_empty : Fragment.join " AND " [typeFilter types, .empty] = typeFilter types := by
  rw [Fragment.join_pair, isEmpty_typeFilter]
  cases types <;> rfl

theorem spells_typeFilter (types : List String) : Spells [] (typeFilter types) := by
  cases types with
  | nil => exact ⟨[], rfl, List.nil_infix⟩
  | cons t types => exact (requires_typeFilter (by simp)).spells

theorem read?_typeFilter (types : List String) :
    Expr.read? (typeFilter types) = some (Expr.conjunction? (typeTests types)) := by
  cases types with
  | nil => rfl
  | cons t types => exact (requires_typeFilter (by simp)).read? rfl

/-- Where the filter is read as requirements, it is read as a whole. -/
theorem read?_condition {es : List Expr} {e : Expr} (hfilter : Requires filter es)
    (he : Expr.conjunction? es = some e) :
    Expr.read? (Fragment.join " AND " [typeFilter types, filter]) =
      some (Expr.conjunction? (typeTests types ++ [e])) := by
  have hne : typeTests types ++ es ≠ [] := by
    intro h
    rw [(List.append_eq_nil_iff.mp h).2] at he
    cases he
  obtain ⟨e', he'⟩ := Expr.exists_conjunction? hne
  rw [(requires_condition hfilter).read? he', ← Expr.conjunction?_append he, he']

/-- A filter that cannot be read cannot be read behind the types either. -/
theorem spells_condition (types : List String) (hfilter : Spells emptyGroup filter) :
    Spells emptyGroup (Fragment.join " AND " [typeFilter types, filter]) := by
  obtain ⟨ts, hts, -⟩ := id hfilter
  have hparts : ∀ f ∈ [typeFilter types, filter], Spells [] f := by
    intro f hf
    simp only [List.mem_cons, List.not_mem_nil, or_false] at hf
    rcases hf with rfl | rfl
    · exact spells_typeFilter types
    · exact ⟨ts, hts, List.nil_infix⟩
  exact (spells_join (by rfl) (by rfl) _ hparts).2 filter (by simp) (by simp [emptyGroup]) hfilter

end Restriction

/-- **The types and the filter are read as wholes**, whatever predicate the filter was compiled
from. -/
theorem read_condition {p : Predicate} {c : Option Condition} (hc : p.compile = .ok c)
    (d : Dialect) (types : List String) {filter condition : Fragment}
    (hfilter : Condition.render? d c = filter)
    (hcondition : Fragment.join " AND " [typeFilter types, filter] = condition) :
    Spells [] condition ∧ condition.params = types.map .text ++ filter.params ∧
      Expr.read? condition = (Expr.read? filter).map fun e =>
        Expr.conjunction? (typeTests types ++ e.toList) := by
  subst hfilter hcondition
  rcases p.compile_tight_or_hollow hc with htight | ⟨x, rfl, hx⟩
  · cases c with
    | none =>
      rw [Condition.render?_none, condition_empty, read?_typeFilter]
      refine ⟨spells_typeFilter types, ?_, ?_⟩
      · rw [params_typeFilter]
        exact (List.append_nil _).symm
      · show some _ = some (Expr.conjunction? (typeTests types ++ []))
        rw [List.append_nil]
    | some x =>
      obtain ⟨es, hreq, hne, -⟩ := (htight x rfl).exists_readsAs (d := d)
      obtain ⟨e, he⟩ := Expr.exists_conjunction? hne
      refine ⟨(requires_condition hreq).spells, params_condition fun h => ?_, ?_⟩
      · cases (Fragment.isEmpty_eq_false hreq.sql_ne).symm.trans h
      · rw [Condition.render?_some, hreq.read? he, read?_condition hreq he]
        rfl
  · -- neither of the two can be read
    have hspells := hx.spells (d := d)
    have hcondition := spells_condition types hspells
    have hne : emptyGroup ≠ [] := by simp [emptyGroup]
    rw [Condition.render?_some]
    refine ⟨?_, params_condition fun h => ?_, ?_⟩
    · obtain ⟨ts, hts, -⟩ := hcondition
      exact ⟨ts, hts, List.nil_infix⟩
    · cases (Fragment.isEmpty_eq_false (hspells.sql_ne hne)).symm.trans h
    · rw [Expr.read?_of_sql_ne (hcondition.sql_ne hne), Expr.read?_of_sql_ne (hspells.sql_ne hne),
        read_eq_none_of_spells hcondition, read_eq_none_of_spells hspells]
      rfl

/-! ### The documents of a search -/

/-- The columns of the row that no document stands for. -/
def nullColumns : List (Token × String) :=
  ["sift_index", "id", "type", "doc"].map fun c => (.word "NULL", c)

theorem readTable_noDocuments : readTable noDocuments =
    some ⟨nullColumns, none, some (.comparison (.compare "=" (.number 1) (.number 0)))⟩ := by
  decide +kernel

/-- **What the documents of a search are read as.**  Of some targets: the union of their rows,
each with the name of its index, restricted to the types if there are any and to the whole of the
expression that the predicate was compiled to if there is one; the values are the types and then
those of the predicate.  Without a target no row is selected. -/
theorem Source.read_documents {p : Predicate} {c : Option Condition} (hc : p.compile = .ok c)
    (d : Dialect) (targets : List Target) (types : List String) :
    let filter := Condition.render? d c
    let source := (Source.documents targets types c).render d
    (if targets = [] then
      source.params = [] ∧ ∃ e, readTable source = some ⟨nullColumns, none, some e⟩ ∧
        ∀ holds, e.truth holds = some false
    else
      source.params = types.map .text ++ filter.params ∧
      readTable source = (Expr.read? filter).map fun e =>
        ⟨documentColumns, some (targets.map Target.selected),
          Expr.conjunction? (typeTests types ++ e.toList)⟩) ∧
    (p.WellFormed → ∃ e, Expr.read? filter = some e) := by
  intro filter source
  obtain ⟨hspells, hparams, hread⟩ := read_condition hc d types rfl rfl
  refine ⟨?_, fun hp => ?_⟩
  · split
    case isTrue htargets =>
      subst htargets
      refine ⟨rfl, .comparison (.compare "=" (.number 1) (.number 0)), ?_, fun holds => rfl⟩
      exact readTable_noDocuments
    case isFalse hne =>
      obtain ⟨hvalues, htable⟩ := readTable_documentsFragment hne rfl hspells
      refine ⟨hvalues.trans hparams, htable.trans ?_⟩
      rw [hread, Option.map_map]
      rfl
  · obtain ⟨htight, -⟩ := Predicate.compile_sound hp hc
    cases c with
    | none => exact ⟨none, rfl⟩
    | some x =>
      obtain ⟨es, hreq, hne, -⟩ := (htight x rfl).exists_readsAs (d := d)
      obtain ⟨e, he⟩ := Expr.exists_conjunction? hne
      exact ⟨some e, hreq.read? he⟩

/-- An alternative of two languages within one type, in two indices. -/
theorem Source.read_documents_alternative :
    let p : Predicate :=
      .bool { should := [.term "lang" (.text "en") none, .term "lang" (.text "fr") none] }
    let equals (language : String) : Condition := .test (.equals "lang" (.text language))
    let c : Option Condition := some (.all [.group (.any [equals "en", equals "fr"])])
    let source := (Source.documents [⟨"p", "docs_p"⟩, ⟨"q", "docs_q"⟩] ["note"] c).render .postgres
    let test (language : String) : Expr := .comparison
      (.compare "=" (.extract "->>" (.column "doc") (.literal "lang")) (.value (.text language)))
    p.compile = .ok c ∧ p.WellFormed ∧
    source.params = [.text "note", .text "en", .text "fr"] ∧
    readTable source = some ⟨documentColumns,
      some [Target.selected ⟨"p", "docs_p"⟩, Target.selected ⟨"q", "docs_q"⟩],
      some (.and (.comparison (.among (.column "type") [.value (.text "note")]))
        (.or (test "en") (test "fr")))⟩ := by
  intro p equals c source test
  have hc : p.compile = .ok c := by rfl
  have hp : p.WellFormed := ⟨trivial, trivial, trivial, trivial, trivial, trivial⟩
  obtain ⟨htable, hfilter⟩ := Source.read_documents hc .postgres
    [⟨"p", "docs_p"⟩, ⟨"q", "docs_q"⟩] ["note"]
  rw [if_neg (by simp)] at htable
  obtain ⟨hparams, htable⟩ := htable
  -- the filter has an expression, and this one is the alternative
  obtain ⟨e, he⟩ := hfilter hp
  have hread : Expr.read? (Condition.render? .postgres c) =
      some (some (.or (test "en") (test "fr"))) := by decide +kernel
  obtain rfl := Option.some.inj (he.symm.trans hread)
  rw [he] at htable
  exact ⟨hc, hp, hparams, htable⟩

end DocSearch
