import DocSearch.Proofs.Sql.Reading
import DocSearch.Sql.Condition

/-!
# Conditions are read as they are meant

The text of a condition is put together from texts, with parentheses in some places
only.  It is read as what the condition means, whatever the connectives mean, as long
as no disjunction stands where a requirement is due; the conditions of this kind are
the tight ones.

## Main definitions

* `Dialect.textOperand`, `Dialect.valueOperand` — what the expression for a field is
  read as.
* `Test.comparison` — what the text of a test is read as.
* `Condition.Tight` — no disjunction is joined by `AND`.

## Main results

* `Test.requires_render` — a test is one requirement, its comparison.
* `Condition.Tight.read_render` — a tight condition is read as it is meant.
-/

namespace DocSearch

open Sql

/-! ### Operands -/

namespace Dialect

/-- The column of the documents. -/
def documentOperand : Operand := .column "doc"

/-- What the expression for a member is read as. -/
def memberOperand (d : Dialect) (field : String) : Operand :=
  match d with
  | sqlite => .extract "->>" documentOperand (.literal (sqlitePath field))
  | postgres =>
    if field.toList.contains '.' then .extract "#>>" documentOperand (.literal (postgresPath field))
    else .extract "->>" documentOperand (.literal field)

/-- What the expression for a field is read as. -/
def valueOperand (d : Dialect) (field : String) : Operand :=
  ((column? field).map .column).getD (d.memberOperand field)

/-- What the expression for a member as text is read as. -/
def memberTextOperand (d : Dialect) (field : String) : Operand :=
  match d with
  | sqlite => .call "sift_text" (.extract "->" documentOperand (.literal (sqlitePath field)))
  | postgres => memberOperand postgres field

/-- What the expression for a field as text is read as. -/
def textOperand (d : Dialect) (field : String) : Operand :=
  ((column? field).map .column).getD (d.memberTextOperand field)

/-- What the expression that reads a number is read as. -/
def numericOperand (d : Dialect) (x : Operand) : Operand :=
  match d with
  | sqlite => .call "sift_numeric" x
  | postgres => .cast x "numeric"

end Dialect

/-! ### Expressions for fields -/

namespace Sql

theorem mk_append (s t : String) (vs : List Value) :
    (⟨s ++ t, vs⟩ : Fragment) = Fragment.raw s ++ ⟨t, vs⟩ := rfl

theorem raw_append (s t : String) : Fragment.raw (s ++ t) = Fragment.raw s ++ Fragment.raw t := rfl

theorem Denotes.word {w : String} {x : Operand} (hscan : tokenize w = some [.word w])
    (hrole : wordRole w = .operand) (hx : readWord w = some x) : Denotes (.raw w) x := by
  refine ⟨[.token (.word w)], ⟨_, hscan, .token (by simp)⟩, ?_, ?_⟩
  · simp [Item.IsOperand, Item.role, hrole]
  · simp [readOperand, readCast, cutAt, Item.role, hrole, readPrimary, hx]

/-- A member that is extracted from the document. -/
theorem denotes_extract {before sign : String} (s : String)
    (hscan : scan .gap before.toList = ([.word "doc", .sign sign], .gap))
    (hsign : signRole sign = .extraction) :
    Denotes (.raw (before ++ quoteLiteral s))
      (.extract sign Dialect.documentOperand (.literal s)) := by
  have hbefore : Yields [.word "doc", .sign sign] [] _ := Yields.tokens (by simp)
  have hpath : Shows (.raw (quoteLiteral s)) [.token (.literal s)] :=
    ⟨_, tokenize_quoteLiteral s, .token (by simp)⟩
  have hdoc : wordRole "doc" = .operand := by decide
  rw [raw_append]
  refine ⟨_, Shows.after hscan hbefore hpath, ?_, ?_⟩
  · simp [Item.IsOperand, Item.role, hsign, hdoc]
  · have hcolumn : readCast [.token (.word "doc")] = some Dialect.documentOperand := rfl
    have hliteral : readCast [.token (.literal s)] = some (.literal s) := rfl
    simp [readOperand, cutAt, Item.role, hsign, hdoc, hcolumn, hliteral]

/-- A function of an operand. -/
theorem Denotes.call {sql : String} {x : Operand} (function : String) (hx : Denotes (.raw sql) x)
    (hscan : tokenize function = some [.word function]) (hrole : wordRole function = .operand) :
    Denotes (.raw (function ++ "(" ++ sql ++ ")")) (.call function x) := by
  have hname : Shows (.raw function) [.token (.word function)] := ⟨_, hscan, .token (by simp)⟩
  obtain ⟨is, hargument, hread⟩ := hx.exists_group
  have hshow := hname.append (hargument.group hread) (startsWithBreak_parenthesized _)
  have heq : Fragment.raw (function ++ "(" ++ sql ++ ")") =
      Fragment.raw function ++ (Fragment.raw sql).parenthesized := by
    rw [String.append_assoc, String.append_assoc, raw_append]
    rfl
  rw [heq]
  refine ⟨_, hshow, ?_, ?_⟩
  · simp [Item.IsOperand, Item.role, hrole]
  · simp [readOperand, readCast, cutAt, Item.role, hrole, readPrimary]

/-- An operand as a number. -/
theorem Denotes.cast {sql : String} {x : Operand} (hx : Denotes (.raw sql) x) :
    Denotes (.raw ("(" ++ sql ++ ")::numeric")) (.cast x "numeric") := by
  obtain ⟨is, hshow, hread⟩ := hx.exists_group
  have hcast : Shows (.raw "::numeric") [.token (.sign "::"), .token (.word "numeric")] :=
    ⟨[.sign "::", .word "numeric"], rfl, Yields.tokens (by simp)⟩
  have heq : Fragment.raw ("(" ++ sql ++ ")::numeric") =
      (Fragment.raw sql).parenthesized ++ Fragment.raw "::numeric" := by
    have hsplit : ")::numeric" = ")" ++ "::numeric" := rfl
    rw [hsplit, ← String.append_assoc, raw_append]
    rfl
  rw [heq]
  refine ⟨_, hshow.group_append hread hcast, ?_, rfl⟩
  have hsign : signRole "::" = .cast := by decide
  have hname : wordRole "numeric" = .operand := by decide
  simp [Item.IsOperand, Item.role, hsign, hname]

end Sql

namespace Dialect

theorem denotes_column {field c : String} (hc : column? field = some c) :
    Denotes (.raw c) (.column c) := by
  rw [column?] at hc
  split at hc
  · cases hc
    exact Denotes.word rfl (by decide) rfl
  · split at hc
    · cases hc
      exact Denotes.word rfl (by decide) rfl
    · cases hc

theorem denotes_member (d : Dialect) (field : String) :
    Denotes (.raw (d.member field)) (d.memberOperand field) := by
  cases d with
  | sqlite => exact denotes_extract _ rfl (by decide)
  | postgres =>
    rw [member, memberOperand]
    split
    · exact denotes_extract _ rfl (by decide)
    · exact denotes_extract _ rfl (by decide)

theorem denotes_memberText (d : Dialect) (field : String) :
    Denotes (.raw (d.memberText field)) (d.memberTextOperand field) := by
  cases d with
  | sqlite =>
    have hmember : Denotes (.raw ("doc -> " ++ quoteLiteral (sqlitePath field)))
        (.extract "->" documentOperand (.literal (sqlitePath field))) :=
      denotes_extract _ rfl (by decide)
    have hcall := hmember.call "sift_text" rfl (by decide)
    rw [← String.append_assoc] at hcall
    exact hcall
  | postgres => exact denotes_member postgres field

/-- The expression for a field is read as an operand. -/
theorem denotes_fieldValue (d : Dialect) (field : String) :
    Denotes (.raw (d.fieldValue field)) (d.valueOperand field) := by
  rw [fieldValue, valueOperand]
  cases h : column? field with
  | none => exact d.denotes_member field
  | some c => exact denotes_column h

/-- The expression for a field as text is read as an operand. -/
theorem denotes_fieldText (d : Dialect) (field : String) :
    Denotes (.raw (d.fieldText field)) (d.textOperand field) := by
  rw [fieldText, textOperand]
  cases h : column? field with
  | none => exact d.denotes_memberText field
  | some c => exact denotes_column h

/-- The expression for an operand as a number is read as such. -/
theorem denotes_numeric (d : Dialect) {expr : String} {x : Operand} (hx : Denotes (.raw expr) x) :
    Denotes (.raw (d.numeric expr)) (d.numericOperand x) := by
  cases d with
  | sqlite => exact hx.call "sift_numeric" rfl (by decide)
  | postgres => exact hx.cast

end Dialect

/-! ### Tests -/

namespace Test

/-- What the text of a test is read as. -/
def comparison (d : Dialect) : Test → Comparison
  | equals field value => .compare "=" (d.textOperand field) (.value value)
  | among field values => .among (d.textOperand field) (values.map .value)
  | like field pattern => .like (d.textOperand field) (.value (.text pattern)) (.literal "\\")
  | compareText field op value => .compare op.sql (d.textOperand field) (.value value)
  | compareNumber field op value =>
    .compare op.sql (d.numericOperand (d.valueOperand field)) (.value value)
  | present field => .notNull (d.valueOperand field)

/-- Whether the text of a test can be read: a list of values has to have some. -/
def IsReadable : Test → Prop
  | among _ values => values ≠ []
  | _ => True

/-- A row has a say in every test. -/
theorem constant?_comparison (d : Dialect) (t : Test) : (t.comparison d).constant? = none := by
  cases t <;> simp [comparison, Comparison.constant?]

end Test

namespace Sql

/-- As many placeholders as values are read as the values. -/
theorem shows_placeholders {vs : List Value} (hne : vs ≠ []) :
    Shows ⟨placeholders vs.length, vs⟩ (valueItems vs) := by
  induction vs using valueItems.induct with
  | case1 => exact absurd rfl hne
  | case2 v =>
    have htoken : tokenize "?" = some [.placeholder] := by rfl
    exact ⟨_, htoken, Yields.value v⟩
  | case3 v w vs ih =>
    obtain ⟨ts, hts, hy⟩ := ih (by simp)
    have hscan : scan .gap ("?" ++ ", ").toList = ([.placeholder, .comma], .gap) := rfl
    have hcomma := (Yields.value v).append (Yields.token (t := .comma) (by simp))
    refine ⟨_, ?_, hcomma.append hy⟩
    exact tokenize_append_of_gap hscan hts

theorem shows_list {vs : List Value} (hne : vs ≠ []) :
    Shows ⟨" IN (" ++ placeholders vs.length ++ ")", vs⟩
      [.token (.word "IN"), .operands (vs.map .value)] := by
  have hscan : scan .gap " IN ".toList = ([.word "IN"], .gap) := rfl
  have hlist := (shows_placeholders hne).group (readGroup_valueItems hne)
  have heq : (⟨" IN (" ++ placeholders vs.length ++ ")", vs⟩ : Fragment) =
      Fragment.raw " IN " ++ Fragment.parenthesized ⟨placeholders vs.length, vs⟩ := by
    have hsplit : " IN (" = " IN " ++ "(" := rfl
    rw [hsplit, String.append_assoc, String.append_assoc, ← @String.append_assoc "("]
    rfl
  rw [heq]
  exact hlist.after hscan (Yields.token (by simp))

end Sql

namespace Test

/-- **A test is one requirement, its comparison.** -/
theorem requires_render (d : Dialect) {t : Test} (ht : t.IsReadable) :
    Requires (t.render d) [.comparison (t.comparison d)] := by
  cases t with
  | equals field value =>
    rw [render, mk_append]
    exact (d.denotes_fieldText field).compare "=" value (by decide) (by rfl) (by rfl)
  | among field values =>
    -- the list in parentheses is one item behind the word `IN`
    have hbreak : startsWithBreak (" IN (" ++ placeholders values.length ++ ")") = true := by
      rw [String.append_assoc]
      exact startsWithBreak_append (by rfl) (by decide) _
    rw [render, String.append_assoc, String.append_assoc, ← @String.append_assoc " IN (", mk_append]
    exact (d.denotes_fieldText field).compareWord (shows_list ht) hbreak (by decide)
      (by simp [Item.role]) rfl
  | like field pattern =>
    have htokens : tokenize " LIKE ? ESCAPE '\\'" =
        some [.word "LIKE", .placeholder, .word "ESCAPE", .literal "\\"] := by rfl
    have htail : Shows ⟨" LIKE ? ESCAPE '\\'", [.text pattern]⟩
        [.token (.word "LIKE"), .value (.text pattern), .token (.word "ESCAPE"),
          .token (.literal "\\")] :=
      ⟨_, htokens, fun ws outer acc => by simp [Reader.step]⟩
    have hbreak : startsWithBreak " LIKE ? ESCAPE '\\'" = true := by rfl
    have hescape : wordRole "ESCAPE" = .escape := by decide
    rw [render, mk_append]
    refine (d.denotes_fieldText field).compareWord htail hbreak (by decide) ?_ (by rfl)
    simp [Item.role, hescape]
  | compareText field op value =>
    rw [render, String.append_assoc, String.append_assoc, mk_append]
    cases op <;> exact (d.denotes_fieldText field).compare _ value (by decide) (by rfl) (by rfl)
  | compareNumber field op value =>
    have hx := d.denotes_numeric (d.denotes_fieldValue field)
    rw [render, String.append_assoc, String.append_assoc, mk_append]
    cases op <;> exact hx.compare _ value (by decide) (by rfl) (by rfl)
  | present field =>
    -- behind `IS` the word `NOT` belongs to the comparison and negates nothing
    have htokens : tokenize " IS NOT NULL" = some [.word "IS", .word "NOT", .word "NULL"] := by rfl
    have htail : Shows (.raw " IS NOT NULL")
        [.token (.word "IS"), .token (.word "NOT"), .token (.word "NULL")] :=
      ⟨_, htokens, Yields.tokens (by simp)⟩
    have hnot : wordRole "NOT" = .not := by decide
    have hnull : wordRole "NULL" = .operand := by decide
    rw [render, mk_append]
    refine (d.denotes_fieldValue field).compareWord htail (by rfl) (by decide) ?_ (by rfl)
    simp [Item.role, hnot, hnull]

end Test

/-! ### Conditions -/

namespace Condition

/-- A condition in which `OR` joins inside parentheses only. -/
inductive Tight : Condition → Prop where
  | test {t : Test} (ht : t.IsReadable) : Tight (.test t)
  | never : Tight .never
  | all {cs : List Condition} (hne : cs ≠ []) (hcs : ∀ c ∈ cs, Tight c) : Tight (.all cs)
  | any {c : Condition} (hc : Tight c) : Tight (.any [c])
  | group {c : Condition} (hc : Tight c) : Tight (.group c)
  | groupAny {cs : List Condition} (hne : cs ≠ []) (hcs : ∀ c ∈ cs, Tight c) :
    Tight (.group (.any cs))
  | notAny {cs : List Condition} (hne : cs ≠ []) (hcs : ∀ c ∈ cs, Tight c) :
    Tight (.not (.any cs))

/-- A condition is read as requirements that mean together what it means. -/
def ReadsAs (d : Dialect) (c : Condition) (es : List Expr) : Prop :=
  Requires (c.render d) es ∧ es ≠ [] ∧ ∀ {α : Type} (K : Connectives α) (holds : Comparison → α),
    K.all (es.map (·.meaning K holds)) = c.meaning K fun t => holds (t.comparison d)

/-- A condition is read as alternatives that mean together what it means. -/
def ReadsAsAny (d : Dialect) (c : Condition) (es : List Expr) : Prop :=
  Offers (c.render d) es ∧ es ≠ [] ∧ ∀ {α : Type} (K : Connectives α) (holds : Comparison → α),
    K.any (es.map (·.meaning K holds)) = c.meaning K fun t => holds (t.comparison d)

variable {d : Dialect}

/-- Requirements are one alternative. -/
theorem ReadsAs.single {c : Condition} {es : List Expr} (h : ReadsAs d c es) :
    ∃ e, ReadsAsAny d c [e] := by
  obtain ⟨hreq, hne, hmean⟩ := h
  obtain ⟨e, he⟩ := Expr.exists_conjunction? hne
  refine ⟨e, hreq.offers he, by simp, fun K holds => ?_⟩
  rw [List.map_singleton, K.any_singleton, Expr.meaning_conjunction? K holds he, hmean]

theorem ReadsAsAny.group {c : Condition} {es : List Expr} (h : ReadsAsAny d c es) :
    ∃ e, ReadsAs d (.group c) [e] := by
  obtain ⟨hoffers, hne, hmean⟩ := h
  obtain ⟨e, he⟩ := Expr.exists_disjunction? hne
  refine ⟨e, hoffers.group he, by simp, fun K holds => ?_⟩
  rw [List.map_singleton, K.all_singleton, Expr.meaning_disjunction? K holds he, hmean, meaning]

theorem ReadsAsAny.not {c : Condition} {es : List Expr} (h : ReadsAsAny d c es) :
    ∃ e, ReadsAs d (.not c) [e] := by
  obtain ⟨hoffers, hne, hmean⟩ := h
  obtain ⟨e, he⟩ := Expr.exists_disjunction? hne
  refine ⟨.not e, hoffers.negated he, by simp, fun K holds => ?_⟩
  rw [List.map_singleton, K.all_singleton, Expr.meaning, Expr.meaning_disjunction? K holds he,
    hmean, meaning]

/-- **A condition that is read as alternatives is read as it is meant.** -/
theorem ReadsAsAny.read {c : Condition} {es : List Expr} (h : ReadsAsAny d c es) :
    ∃ e, Expr.read (c.render d) = some e ∧
      ∀ {α : Type} (K : Connectives α) (holds : Comparison → α),
        e.meaning K holds = c.meaning K fun t => holds (t.comparison d) := by
  obtain ⟨hoffers, hne, hmean⟩ := h
  obtain ⟨e, he⟩ := Expr.exists_disjunction? hne
  refine ⟨e, by rw [hoffers.read, he], fun K holds => ?_⟩
  rw [Expr.meaning_disjunction? K holds he, hmean]

theorem readsAs_test {t : Test} (ht : t.IsReadable) :
    ReadsAs d (.test t) [.comparison (t.comparison d)] := by
  refine ⟨t.requires_render d ht, by simp, fun K holds => ?_⟩
  rw [List.map_singleton, K.all_singleton, Expr.meaning, Comparison.meaning,
    t.constant?_comparison d, meaning]

theorem readsAs_never :
    ReadsAs d .never [.comparison (.compare "=" (.number 1) (.number 0))] := by
  have htokens : tokenize "1 = 0" = some [.word "1", .sign "=", .word "0"] := by rfl
  have hshow : Shows Fragment.never [.token (.word "1"), .token (.sign "="), .token (.word "0")] :=
    ⟨_, htokens, Yields.tokens (by simp)⟩
  refine ⟨Requires.singleton hshow ?_ rfl, by simp, fun K holds => ?_⟩
  · have hone : wordRole "1" = .operand := by decide
    have hzero : wordRole "0" = .operand := by decide
    have hequals : signRole "=" = .comparison := by decide
    simp [Item.role, hone, hzero, hequals]
  · rw [List.map_singleton, K.all_singleton]
    rfl

theorem join_singleton {f : Fragment} (hf : f.sql ≠ "") (separator : String) :
    Fragment.join separator [f] = f := by
  simp [Fragment.join, Fragment.isEmpty, hf, Fragment.chain]

theorem join_cons_cons {f g : Fragment} (hf : f.sql ≠ "") (hg : g.sql ≠ "") (separator : String)
    (fs : List Fragment) : Fragment.join separator (f :: g :: fs) =
      f.push separator ++ Fragment.join separator (g :: fs) := by
  simp [Fragment.join, Fragment.isEmpty, hf, hg, Fragment.chain]

/-- Conditions joined by `AND` are read as all their requirements. -/
theorem exists_readsAs_all {cs : List Condition} (hne : cs ≠ [])
    (hcs : ∀ c ∈ cs, ∃ es, ReadsAs d c es) : ∃ es, ReadsAs d (.all cs) es := by
  induction cs with
  | nil => exact absurd rfl hne
  | cons c cs ih =>
    obtain ⟨es, hreq, hes, hmean⟩ := hcs c (by simp)
    cases cs with
    | nil =>
      refine ⟨es, ?_, hes, fun K holds => ?_⟩
      · rw [render, renderList, renderList, join_singleton hreq.sql_ne]
        exact hreq
      · rw [hmean, meaning, meaningList, meaningList, K.all_singleton]
    | cons c' cs =>
      have hrest := ih (by simp) fun x hx => hcs x (List.mem_cons_of_mem c hx)
      obtain ⟨fs, hreq', -, hmean'⟩ := hrest
      obtain ⟨_, hfirst, -⟩ := hcs c' (by simp)
      -- the next part has a text, so the separator stands between the two
      refine ⟨es ++ fs, ?_, by simp [hes], fun K holds => ?_⟩
      · rw [render, renderList, renderList, join_cons_cons hreq.sql_ne hfirst.sql_ne]
        exact hreq.joined hreq'
      · rw [List.map_append, K.all_append, hmean, hmean', meaning, meaning]
        rfl

/-- Conditions joined by `OR` are read as one alternative each. -/
theorem exists_readsAsAny_any {cs : List Condition} (hne : cs ≠ [])
    (hcs : ∀ c ∈ cs, ∃ es, ReadsAs d c es) : ∃ es, ReadsAsAny d (.any cs) es := by
  induction cs with
  | nil => exact absurd rfl hne
  | cons c cs ih =>
    obtain ⟨es₀, hreq⟩ := hcs c (by simp)
    obtain ⟨e, hoffers, -, hmean⟩ := hreq.single
    have hsql := hoffers.sql_ne
    cases cs with
    | nil =>
      refine ⟨[e], ?_, by simp, fun K holds => ?_⟩
      · rw [render, renderList, renderList, join_singleton hsql]
        exact hoffers
      · rw [hmean, meaning, meaningList, meaningList, K.any_singleton]
    | cons c' cs =>
      have hrest := ih (by simp) fun x hx => hcs x (List.mem_cons_of_mem c hx)
      obtain ⟨fs, hoffers', -, hmean'⟩ := hrest
      obtain ⟨_, hfirst, -⟩ := hcs c' (by simp)
      refine ⟨[e] ++ fs, ?_, by simp, fun K holds => ?_⟩
      · rw [render, renderList, renderList, join_cons_cons hsql hfirst.sql_ne]
        exact hoffers.joined hoffers'
      · rw [List.map_append, K.any_append, hmean, hmean', meaning, meaning]
        rfl

/-- A tight condition is read as requirements. -/
theorem Tight.exists_readsAs {c : Condition} (hc : Tight c) : ∃ es, ReadsAs d c es := by
  induction hc with
  | test ht => exact ⟨_, readsAs_test ht⟩
  | never => exact ⟨_, readsAs_never⟩
  | all hne _ ih => exact exists_readsAs_all hne ih
  | @any c _ ih =>
    -- a single alternative is written without `OR`, so its requirements stay apart
    obtain ⟨es, hreq, hes, hmean⟩ := ih
    refine ⟨es, ?_, hes, fun K holds => ?_⟩
    · rw [render, renderList, renderList, join_singleton hreq.sql_ne]
      exact hreq
    · rw [hmean, meaning, meaningList, meaningList, K.any_singleton]
  | group _ ih =>
    obtain ⟨es, hreq⟩ := ih
    obtain ⟨e, he⟩ := hreq.single
    obtain ⟨e', he'⟩ := he.group
    exact ⟨_, he'⟩
  | groupAny hne _ ih =>
    obtain ⟨es, hes⟩ := exists_readsAsAny_any hne ih
    obtain ⟨e, he⟩ := hes.group
    exact ⟨_, he⟩
  | notAny hne _ ih =>
    obtain ⟨es, hes⟩ := exists_readsAsAny_any hne ih
    obtain ⟨e, he⟩ := hes.not
    exact ⟨_, he⟩

/-- **A tight condition is read as it is meant**, whatever its connectives mean. -/
theorem Tight.read_render {c : Condition} (hc : Tight c) (d : Dialect) :
    ∃ e, Expr.read (c.render d) = some e ∧
      ∀ {α : Type} (K : Connectives α) (holds : Comparison → α),
        e.meaning K holds = c.meaning K fun t => holds (t.comparison d) := by
  obtain ⟨es, hes⟩ := hc.exists_readsAs (d := d)
  obtain ⟨e, he⟩ := hes.single
  exact he.read

/-- The text of a tight condition is not empty. -/
theorem Tight.sql_ne {c : Condition} (hc : Tight c) (d : Dialect) : (c.render d).sql ≠ "" := by
  obtain ⟨es, hreq, -⟩ := hc.exists_readsAs (d := d)
  exact hreq.sql_ne

end Condition

end DocSearch
