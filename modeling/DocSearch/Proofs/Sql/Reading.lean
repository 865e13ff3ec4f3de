import DocSearch.Proofs.Sql.Expression

/-!
# Reading fragments piece by piece

A fragment shows a list of items if a reader that comes to it adds these items and
takes its values, whatever was read before and whatever follows.  Fragments that meet
at a break show their items one after the other, and a fragment in parentheses shows
one item.  On top of this stand the three levels of a condition: requirements, which
`AND` joins, alternatives, which `OR` joins, and operands.

## Main definitions

* `Shows` — the items of a fragment.
* `Denotes`, `Requires`, `Offers` — a fragment as an operand, as requirements, as
  alternatives.

## Main results

* `Requires.joined`, `Offers.joined` — joining fragments joins what they are read as.
* `Offers.group`, `Offers.negated` — parentheses hide what is joined inside.
* `Offers.read` — what a fragment with alternatives is read as.
-/

namespace DocSearch.Sql

/-! ### Items of a fragment -/

/-- Tokens that take the values `vs` and are read as the items `is`. -/
def Yields (ts : List Token) (vs : List Value) (is : List Item) : Prop :=
  ∀ ws outer acc, ts.foldlM Reader.step ⟨vs ++ ws, outer, acc⟩ = some ⟨ws, outer, acc ++ is⟩

theorem Yields.nil : Yields [] [] [] := by
  intro ws outer acc
  simp

theorem Yields.append {ts us : List Token} {vs ws : List Value} {is js : List Item}
    (ht : Yields ts vs is) (hu : Yields us ws js) :
    Yields (ts ++ us) (vs ++ ws) (is ++ js) := by
  intro rest outer acc
  rw [List.foldlM_append, List.append_assoc, ht]
  simpa using hu rest outer (acc ++ is)

/-- Most tokens are items as they are. -/
theorem Yields.token {t : Token} (ht : t ∉ [Token.opening, .closing, .placeholder]) :
    Yields [t] [] [.token t] := by
  intro ws outer acc
  cases t <;> simp_all [Reader.step]

theorem Yields.tokens {ts : List Token}
    (hts : ∀ t ∈ ts, t ∉ [Token.opening, .closing, .placeholder]) :
    Yields ts [] (ts.map .token) := by
  induction ts with
  | nil => exact .nil
  | cons t ts ih =>
    have ht := Yields.token (hts t (by simp))
    exact ht.append (ih fun u hu => hts u (List.mem_cons_of_mem t hu))

theorem Yields.value (v : Value) : Yields [.placeholder] [v] [.value v] := by
  intro ws outer acc
  simp [Reader.step]

/-- What stands in parentheses is read on its own. -/
theorem Yields.group {ts : List Token} {vs : List Value} {is : List Item} {i : Item}
    (ht : Yields ts vs is) (hi : readGroup is = some i) :
    Yields (.opening :: ts ++ [.closing]) vs [i] := by
  intro ws outer acc
  rw [List.cons_append, List.foldlM_cons]
  simp only [Reader.step, Option.bind_eq_bind, Option.bind_some]
  rw [List.foldlM_append, ht]
  simp [Reader.step, hi]

/-- The items that a fragment shows. -/
def Shows (f : Fragment) (is : List Item) : Prop :=
  ∃ ts, tokenize f.sql = some ts ∧ Yields ts f.params is

/-- A fragment without text shows nothing. -/
theorem Shows.sql_ne {f : Fragment} {is : List Item} (hf : Shows f is) (his : is ≠ []) :
    f.sql ≠ "" := by
  obtain ⟨ts, hts, hy⟩ := hf
  intro h
  have hnil : ts = [] := by
    rw [h] at hts
    exact (Option.some.inj hts).symm
  have hread := hy [] [] []
  rw [hnil] at hread
  simp [eq_comm, his] at hread

/-- Fragments that meet at a break show their items one after the other. -/
theorem Shows.append {f g : Fragment} {is js : List Item} (hf : Shows f is) (hg : Shows g js)
    (hbreak : startsWithBreak g.sql = true) : Shows (f ++ g) (is ++ js) := by
  obtain ⟨ts, hts, hyf⟩ := hf
  obtain ⟨us, hus, hyg⟩ := hg
  exact ⟨ts ++ us, tokenize_append hts hus hbreak, hyf.append hyg⟩

theorem startsWithBreak_append {s : String} (hs : startsWithBreak s = true) (hne : s ≠ "")
    (t : String) : startsWithBreak (s ++ t) = true := by
  rw [startsWithBreak, String.toList_append]
  cases h : s.toList with
  | nil => exact absurd (String.toList_eq_nil_iff.mp h) hne
  | cons c cs => simpa [startsWithBreak, h] using hs

theorem Fragment.push_append (f g : Fragment) (s : String) :
    f.push s ++ g = f ++ (Fragment.raw s ++ g) := by
  show Fragment.mk (f.sql ++ s ++ g.sql) _ = Fragment.mk (f.sql ++ (s ++ g.sql)) _
  rw [String.append_assoc]
  rfl

theorem startsWithBreak_parenthesized (f : Fragment) :
    startsWithBreak f.parenthesized.sql = true := by
  rw [Fragment.parenthesized, String.append_assoc]
  exact startsWithBreak_append rfl (by decide) _

/-- A text behind which nothing is pending may be followed by anything. -/
theorem Shows.after {s : String} {g : Fragment} {ts : List Token} {is js : List Item}
    (hs : scan .gap s.toList = (ts, .gap)) (hts : Yields ts [] is) (hg : Shows g js) :
    Shows (Fragment.raw s ++ g) (is ++ js) := by
  obtain ⟨us, hus, hyg⟩ := hg
  exact ⟨ts ++ us, tokenize_append_of_gap hs hus, hts.append hyg⟩

/-- A fragment in parentheses shows one item. -/
theorem Shows.group {f : Fragment} {is : List Item} {i : Item} (hf : Shows f is)
    (hi : readGroup is = some i) : Shows f.parenthesized [i] := by
  obtain ⟨ts, hts, hy⟩ := hf
  exact ⟨_, tokenize_of_gap (scan_parenthesized hts), hy.group hi⟩

/-- Anything may follow a fragment in parentheses. -/
theorem Shows.group_append {f g : Fragment} {is js : List Item} {i : Item} (hf : Shows f is)
    (hi : readGroup is = some i) (hg : Shows g js) : Shows (f.parenthesized ++ g) (i :: js) := by
  obtain ⟨ts, hts, hy⟩ := hf
  obtain ⟨us, hus, hyg⟩ := hg
  exact ⟨_, tokenize_append_of_gap (scan_parenthesized hts) hus, (hy.group hi).append hyg⟩

/-- What is read of a fragment is read of its items. -/
theorem Shows.read {f : Fragment} {is : List Item} (hf : Shows f is) : Expr.read f = readOr is := by
  obtain ⟨ts, hts, hy⟩ := hf
  have hfold := hy [] [] []
  rw [List.append_nil] at hfold
  simp [Expr.read, hts, hfold, Reader.finish]

/-! ### Cuts -/

theorem cutAt_append {r : Role} {is js : List Item} {i : Item} (his : ∀ x ∈ is, x.role ≠ r)
    (hi : i.role = r) : cutAt r (is ++ i :: js) = some (is, i, js) := by
  induction is with
  | nil => rw [List.nil_append, cutAt, if_pos hi]
  | cons x is ih =>
    rw [List.cons_append, cutAt, if_neg (his x (by simp)),
      ih fun y hy => his y (List.mem_cons_of_mem x hy)]
    rfl

theorem cutAt_eq_none {r : Role} {is : List Item} (his : ∀ x ∈ is, x.role ≠ r) :
    cutAt r is = none := by
  induction is with
  | nil => rfl
  | cons x is ih =>
    rw [cutAt, if_neg (his x (by simp)), ih fun y hy => his y (List.mem_cons_of_mem x hy)]
    rfl

theorem splitOnP_role_eq_singleton {r : Role} {is : List Item} (his : ∀ x ∈ is, x.role ≠ r) :
    (is.splitOnP fun i => decide (i.role = r)) = [is] :=
  List.splitOnP_eq_singleton fun x hx => decide_eq_false (his x hx)

theorem readNot_eq_readComparison {is : List Item} (hne : is ≠ [])
    (his : ∀ x ∈ is.head?, x.role ≠ .not) : readNot is = readComparison is := by
  cases is with
  | nil => exact absurd rfl hne
  | cons i is => rw [readNot, if_neg (his i rfl)]

/-! ### Operands -/

/-- Whether an item may be part of an operand. -/
def Item.IsOperand (i : Item) : Prop := i.role ∈ [Role.extraction, Role.cast, Role.operand]

theorem Item.IsOperand.role_ne {i : Item} (hi : i.IsOperand) {r : Role}
    (hr : r ∉ [Role.extraction, Role.cast, Role.operand]) : i.role ≠ r := by
  rintro rfl
  exact hr hi

/-- A fragment is read as an operand. -/
def Denotes (f : Fragment) (x : Operand) : Prop :=
  ∃ is, Shows f is ∧ (∀ i ∈ is, i.IsOperand) ∧ readOperand is = some x

/-- Without anything that joins, negates or compares there is no condition, unless
the whole is a condition in parentheses. -/
theorem readOr_eq_none {is : List Item}
    (his : ∀ i ∈ is, i.role ∉ [Role.or, Role.and, Role.not, Role.comparison])
    (hgroup : ∀ e, is ≠ [.condition e]) : readOr is = none := by
  have hrole : ∀ r ∈ [Role.or, Role.and, Role.not, Role.comparison], ∀ i ∈ is, i.role ≠ r := by
    rintro r hr i hi rfl
    exact his i hi hr
  have hnot : readNot is = none := by
    by_cases hne : is = []
    · rw [hne, readNot]
    · rw [readNot_eq_readComparison hne fun i hi =>
          hrole .not (by decide) i (List.mem_of_mem_head? hi),
        readComparison, cutAt_eq_none (hrole .comparison (by decide))]
      -- all that is left is a condition in parentheses
      exact hgroup
  rw [readOr, splitOnP_role_eq_singleton (hrole .or (by decide))]
  simp only [List.mapM_cons, readAnd]
  rw [splitOnP_role_eq_singleton (hrole .and (by decide))]
  simp [hnot]

/-- Items of an operand are no condition. -/
theorem readOr_of_readOperand {is : List Item} {x : Operand} (his : ∀ i ∈ is, i.IsOperand)
    (hx : readOperand is = some x) : readOr is = none := by
  have hdisjoint : ∀ r ∈ [Role.extraction, Role.cast, Role.operand],
      r ∉ [Role.or, Role.and, Role.not, Role.comparison] := by decide
  refine readOr_eq_none (fun i hi => hdisjoint _ (his i hi)) ?_
  -- a condition in parentheses is no operand either
  rintro e rfl
  simp [readOperand, readCast, cutAt, Item.role, readPrimary] at hx

/-- An operand in parentheses stays an operand. -/
theorem Denotes.exists_group {f : Fragment} {x : Operand} (hf : Denotes f x) :
    ∃ is, Shows f is ∧ readGroup is = some (.operands [x]) := by
  obtain ⟨is, hs, his, hx⟩ := hf
  refine ⟨is, hs, ?_⟩
  rw [readGroup, readOr_of_readOperand his hx,
    splitOnP_role_eq_singleton fun i hi => (his i hi).role_ne (by decide)]
  simp [hx]

/-- Values with commas between them. -/
def valueItems : List Value → List Item
  | [] => []
  | [v] => [.value v]
  | v :: w :: vs => .value v :: .token .comma :: valueItems (w :: vs)

theorem role_of_mem_valueItems {vs : List Value} :
    ∀ i ∈ valueItems vs, i.role ∈ [Role.comma, Role.operand] := by
  induction vs using valueItems.induct with
  | case1 => simp [valueItems]
  | case2 v => simp [valueItems, Item.role]
  | case3 v w vs ih =>
    intro i hi
    rw [valueItems, List.mem_cons, List.mem_cons] at hi
    rcases hi with rfl | rfl | hi
    · simp [Item.role]
    · simp [Item.role]
    · exact ih i hi

theorem mapM_readOperand_valueItems {vs : List Value} (hne : vs ≠ []) :
    ((valueItems vs).splitOnP fun i => decide (i.role = .comma)).mapM readOperand =
      some (vs.map .value) := by
  induction vs using valueItems.induct with
  | case1 => exact absurd rfl hne
  | case2 v => rfl
  | case3 v w vs ih =>
    have hcomma : decide ((Item.token .comma).role = .comma) = true := by decide
    have hsplit := List.splitOnP_append_cons (p := fun i : Item => decide (i.role = .comma))
      [.value v] (valueItems (w :: vs)) hcomma
    rw [List.singleton_append] at hsplit
    have hv : readOperand [.value v] = some (.value v) := rfl
    rw [valueItems, hsplit, List.mapM_append, ih (by simp),
      splitOnP_role_eq_singleton (by simp [Item.role])]
    simp [hv]

/-- Values with commas between them, in parentheses. -/
theorem readGroup_valueItems {vs : List Value} (hne : vs ≠ []) :
    readGroup (valueItems vs) = some (.operands (vs.map .value)) := by
  have hor : readOr (valueItems vs) = none := by
    have hdisjoint : ∀ r ∈ [Role.comma, Role.operand],
        r ∉ [Role.or, Role.and, Role.not, Role.comparison] := by decide
    refine readOr_eq_none (fun i hi => hdisjoint _ (role_of_mem_valueItems i hi)) ?_
    intro e he
    cases vs with
    | nil => exact hne rfl
    | cons v vs => cases vs <;> simp [valueItems] at he
  rw [readGroup, hor, mapM_readOperand_valueItems hne]
  rfl

/-! ### Joined expressions -/

namespace Expr

variable {α : Type}

theorem exists_conjunction? {es : List Expr} (hne : es ≠ []) : ∃ e, conjunction? es = some e := by
  induction es using conjunction?.induct with
  | case1 => exact absurd rfl hne
  | case2 e => exact ⟨e, rfl⟩
  | case3 e f es ih =>
    obtain ⟨g, hg⟩ := ih (by simp)
    exact ⟨.and e g, by rw [conjunction?, hg]; rfl⟩

theorem exists_disjunction? {es : List Expr} (hne : es ≠ []) : ∃ e, disjunction? es = some e := by
  induction es using disjunction?.induct with
  | case1 => exact absurd rfl hne
  | case2 e => exact ⟨e, rfl⟩
  | case3 e f es ih =>
    obtain ⟨g, hg⟩ := ih (by simp)
    exact ⟨.or e g, by rw [disjunction?, hg]; rfl⟩

theorem meaning_conjunction? (K : Connectives α) (holds : Comparison → α) {es : List Expr}
    {e : Expr} (he : conjunction? es = some e) :
    e.meaning K holds = K.all (es.map (meaning K holds)) := by
  induction es using conjunction?.induct generalizing e with
  | case1 => simp [conjunction?] at he
  | case2 f =>
    cases he
    exact (K.all_singleton _).symm
  | case3 f g es ih =>
    rw [conjunction?, Option.map_eq_some_iff] at he
    obtain ⟨c, hc, rfl⟩ := he
    rw [meaning, ih hc]
    rfl

theorem meaning_disjunction? (K : Connectives α) (holds : Comparison → α) {es : List Expr}
    {e : Expr} (he : disjunction? es = some e) :
    e.meaning K holds = K.any (es.map (meaning K holds)) := by
  induction es using disjunction?.induct generalizing e with
  | case1 => simp [disjunction?] at he
  | case2 f =>
    cases he
    exact (K.any_singleton _).symm
  | case3 f g es ih =>
    rw [disjunction?, Option.map_eq_some_iff] at he
    obtain ⟨c, hc, rfl⟩ := he
    rw [meaning, ih hc]
    rfl

end Expr

/-! ### Requirements and alternatives -/

/-- A fragment is read as requirements. -/
def Requires (f : Fragment) (es : List Expr) : Prop :=
  ∃ is, Shows f is ∧ (∀ i ∈ is, i.role ≠ .or) ∧
    (is.splitOnP fun i => decide (i.role = .and)).mapM readNot = some es

/-- A fragment is read as alternatives. -/
def Offers (f : Fragment) (es : List Expr) : Prop :=
  ∃ is, Shows f is ∧ (is.splitOnP fun i => decide (i.role = .or)).mapM readAnd = some es

/-- What neither `AND` nor `OR` joins is one requirement. -/
theorem Requires.singleton {f : Fragment} {is : List Item} {e : Expr} (hf : Shows f is)
    (his : ∀ i ∈ is, i.role ∉ [Role.or, Role.and]) (he : readNot is = some e) : Requires f [e] := by
  refine ⟨is, hf, fun i hi h => his i hi (by simp [h]), ?_⟩
  rw [splitOnP_role_eq_singleton fun i hi h => his i hi (by simp [h])]
  simp [he]

/-- Fragments with a word between them. -/
theorem Shows.joined {f g : Fragment} {is js : List Item} {separator w : String}
    (hf : Shows f is) (hg : Shows g js) (hbreak : startsWithBreak separator = true)
    (hscan : scan .gap separator.toList = ([.word w], .gap)) :
    Shows (f.push separator ++ g) (is ++ .token (.word w) :: js) := by
  have hword : Yields [.word w] [] [.token (.word w)] := fun ws outer acc => rfl
  have hne : separator ≠ "" := by
    rintro rfl
    simp at hscan
  rw [Fragment.push_append]
  exact hf.append (.after hscan hword hg) (startsWithBreak_append hbreak hne _)

/-- What compares an operand with what stands behind it is one requirement. -/
theorem Denotes.requires {f g : Fragment} {x : Operand} {i : Item} {js : List Item} {e : Expr}
    (hf : Denotes f x) (hg : Shows g (i :: js)) (hbreak : startsWithBreak g.sql = true)
    (hi : i.role = .comparison) (hjs : ∀ j ∈ js, j.role ∉ [Role.or, Role.and])
    (hread : ∀ is, cutAt .comparison (is ++ i :: js) = some (is, i, js) → readOperand is = some x →
      readComparison (is ++ i :: js) = some e) : Requires (f ++ g) [e] := by
  obtain ⟨is, hshow, his, hx⟩ := hf
  refine Requires.singleton (hshow.append hg hbreak) ?_ ?_
  · intro j hj
    rw [List.mem_append, List.mem_cons] at hj
    rcases hj with hj | rfl | hj
    · have hdisjoint : ∀ r ∈ [Role.extraction, Role.cast, Role.operand],
          r ∉ [Role.or, Role.and] := by decide
      exact hdisjoint _ (his j hj)
    · rw [hi]
      decide
    · exact hjs j hj
  · -- the first item belongs to the operand or compares it; it does not negate
    rw [readNot_eq_readComparison (by simp)]
    · exact hread is (cutAt_append (fun j hj => (his j hj).role_ne (by decide)) hi) hx
    · intro j hj
      cases is with
      | nil =>
        cases hj
        rw [hi]
        decide
      | cons k ks =>
        cases hj
        exact (his j (by simp)).role_ne (by decide)

/-- An operand compared with a value. -/
theorem Denotes.compare {f : Fragment} {x : Operand} {text : String} (sign : String) (v : Value)
    (hf : Denotes f x) (hsign : signRole sign = .comparison)
    (htext : tokenize text = some [.sign sign, .placeholder])
    (hbreak : startsWithBreak text = true) :
    Requires (f ++ ⟨text, [v]⟩) [.comparison (.compare sign x (.value v))] := by
  have hshow : Shows ⟨text, [v]⟩ [.token (.sign sign), .value v] :=
    ⟨_, htext, (Yields.token (by simp)).append (Yields.value v)⟩
  refine hf.requires hshow hbreak hsign (by simp [Item.role]) fun is hcut hx => ?_
  have hv : readOperand [.value v] = some (.value v) := rfl
  simp [readComparison, hcut, hx, hv]

/-- An operand compared by a word with what stands behind it. -/
theorem Denotes.compareWord {f g : Fragment} {x : Operand} {w : String} {js : List Item}
    {c : Comparison} (hf : Denotes f x) (hg : Shows g (.token (.word w) :: js))
    (hbreak : startsWithBreak g.sql = true) (hw : wordRole w = .comparison)
    (hjs : ∀ j ∈ js, j.role ∉ [Role.or, Role.and]) (hread : readWordComparison x w js = some c) :
    Requires (f ++ g) [.comparison c] := by
  refine hf.requires hg hbreak hw hjs fun is hcut hx => ?_
  simp [readComparison, hcut, hx, hread]

theorem Requires.joined {f g : Fragment} {es fs : List Expr} (hf : Requires f es)
    (hg : Requires g fs) : Requires (f.push " AND " ++ g) (es ++ fs) := by
  obtain ⟨is, hshow, hor, hread⟩ := hf
  obtain ⟨js, hshow', hor', hread'⟩ := hg
  refine ⟨is ++ .token (.word "AND") :: js, hshow.joined hshow' rfl rfl, ?_, ?_⟩
  · intro i hi
    rw [List.mem_append, List.mem_cons] at hi
    rcases hi with hi | rfl | hi
    · exact hor i hi
    · decide
    · exact hor' i hi
  · rw [List.splitOnP_append_cons is js (by decide), List.mapM_append, hread, hread']
    rfl

theorem Offers.joined {f g : Fragment} {es fs : List Expr} (hf : Offers f es)
    (hg : Offers g fs) : Offers (f.push " OR " ++ g) (es ++ fs) := by
  obtain ⟨is, hshow, hread⟩ := hf
  obtain ⟨js, hshow', hread'⟩ := hg
  refine ⟨is ++ .token (.word "OR") :: js, hshow.joined hshow' rfl rfl, ?_⟩
  rw [List.splitOnP_append_cons is js (by decide), List.mapM_append, hread, hread']
  rfl

theorem Requires.sql_ne {f : Fragment} {es : List Expr} (hf : Requires f es) : f.sql ≠ "" := by
  obtain ⟨is, hshow, -, hread⟩ := hf
  refine hshow.sql_ne ?_
  rintro rfl
  simp [List.splitOnP_nil, readNot] at hread

theorem Offers.sql_ne {f : Fragment} {es : List Expr} (hf : Offers f es) : f.sql ≠ "" := by
  obtain ⟨is, hshow, hread⟩ := hf
  refine hshow.sql_ne ?_
  rintro rfl
  simp [List.splitOnP_nil, readAnd, readNot] at hread

/-- Requirements are one alternative. -/
theorem Requires.offers {f : Fragment} {es : List Expr} {e : Expr} (hf : Requires f es)
    (he : Expr.conjunction? es = some e) : Offers f [e] := by
  obtain ⟨is, hshow, hor, hread⟩ := hf
  refine ⟨is, hshow, ?_⟩
  have hand : readAnd is = some e := by rw [readAnd, hread]; exact he
  rw [splitOnP_role_eq_singleton hor]
  simp [hand]

/-- **What a fragment with alternatives is read as.** -/
theorem Offers.read {f : Fragment} {es : List Expr} (hf : Offers f es) :
    Expr.read f = Expr.disjunction? es := by
  obtain ⟨is, hshow, hread⟩ := hf
  rw [hshow.read, readOr, hread]
  rfl

theorem Offers.shows_group {f : Fragment} {es : List Expr} {e : Expr} (hf : Offers f es)
    (he : Expr.disjunction? es = some e) : Shows f.parenthesized [.condition e] := by
  obtain ⟨is, hshow, hread⟩ := hf
  refine hshow.group ?_
  have hor : readOr is = some e := by rw [readOr, hread]; exact he
  rw [readGroup, hor]

/-- **Alternatives in parentheses are one requirement.** -/
theorem Offers.group {f : Fragment} {es : List Expr} {e : Expr} (hf : Offers f es)
    (he : Expr.disjunction? es = some e) : Requires f.parenthesized [e] :=
  .singleton (hf.shows_group he) (by simp [Item.role]) rfl

/-- **The negation of alternatives is one requirement.** -/
theorem Offers.negated {f : Fragment} {es : List Expr} {e : Expr} (hf : Offers f es)
    (he : Expr.disjunction? es = some e) : Requires f.negated [.not e] := by
  have hnot : Yields [.word "NOT"] [] [.token (.word "NOT")] := fun ws outer acc => rfl
  have hscan : scan .gap "NOT ".toList = ([.word "NOT"], .gap) := rfl
  have hshow := Shows.after hscan hnot (hf.shows_group he)
  have heq : f.negated = Fragment.raw "NOT " ++ f.parenthesized := by
    show Fragment.mk ("NOT (" ++ f.sql ++ ")") _ = Fragment.mk ("NOT " ++ ("(" ++ f.sql ++ ")")) _
    rw [← String.append_assoc, ← String.append_assoc]
    rfl
  rw [heq]
  exact .singleton hshow (by simp [Item.role]; decide) rfl

end DocSearch.Sql
