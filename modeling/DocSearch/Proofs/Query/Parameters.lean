import DocSearch.Proofs.Query.Writing
import DocSearch.Query.Reader

/-!
# When the bodies of queries are read

What the members of each kind of body write, and so when a body is read and what as.  The
kind of a query shows in its errors and in the parameters that it knows, and in nothing else.

A value in the place of an object of parameters is read as the object with that value in its
main parameter, and a value in the place of a list as the list of that value.

## Main definitions

* `Json.listed` — the items of an array, or a value in the place of one.
* `TextWrites`, `MultiFieldWrites`, `ValueWrites`, `IdsWrites` — what parameters write.
* `besidesBoost` — the members that are no weight.

## Main results

* `fullText_eq_ok`, `multiField_eq_ok`, `term_eq_ok`, `docType_eq_ok`, `startsWith_eq_ok`,
  `present_eq_ok`, `matchAll_eq_ok`, `ids_eq_ok`, `terms_eq_ok`, `range_eq_ok` — **when a body
  is read**, and what as.
-/

namespace DocSearch

open Steps

/-! ### Values in the place of lists, scalars and numbers -/

namespace Json

/-- The items of an array; a value that stands alone is the only item. -/
def listed : Json → List Json
  | .arr items => items
  | v => [v]

/-- A value is a scalar that is spelt as a text. -/
def IsSpelt (v : Json) (text : String) : Prop := ∃ s : Scalar, v = s.toJson ∧ s.spelling = text

/-- A value is a number, and `x` is the double for it. -/
def IsDouble (v : Json) (x : Float) : Prop :=
  (∃ n, v = .num (.int n) ∧ Float.ofInt n = x) ∨ v = .num (.real x)

end Json

theorem Scalar.ofJson?_eq_some {v : Json} {s : Scalar} : ofJson? v = some s ↔ v = s.toJson := by
  constructor
  · intro h
    cases v <;> cases h <;> rfl
  · rintro rfl
    exact ofJson?_toJson s

namespace RangeOp

/-- The parameter name of a comparison. -/
def key : RangeOp → String
  | gt => "gt"
  | gte => "gte"
  | lt => "lt"
  | lte => "lte"

theorem ofKey?_eq_some {name : String} {op : RangeOp} : ofKey? name = some op ↔ name = op.key := by
  constructor
  · intro h
    unfold ofKey? at h
    split_ifs at h with h₁ h₂ h₃ h₄ <;> cases h <;> assumption
  · rintro rfl
    cases op <;> rfl

theorem key_injective {op op' : RangeOp} (h : op.key = op'.key) : op = op' := by
  have hsome := ofKey?_eq_some.mpr h
  rw [ofKey?_eq_some.mpr rfl] at hsome
  exact Option.some.inj hsome

theorem key_ne_boost (op : RangeOp) : op.key ≠ "boost" := by
  cases op <;> decide

end RangeOp

/-! ### Values of parameters -/

namespace Query

theorem mapM_eq_ok_iff {α β ε : Type} {f : α → Except ε β} {as : List α} {bs : List β} :
    as.mapM f = .ok bs ↔ List.Forall₂ (fun a b => f a = .ok b) as bs := by
  rw [mapM_eq_ok, ← List.forall₂_eq_eq_eq, List.forall₂_map_left_iff, List.forall₂_map_right_iff]

section Values

variable {kind parameter : String} {v : Json}

theorem number_eq_ok {x : Float} : number kind parameter v = .ok x ↔ v.IsDouble x := by
  unfold number Json.IsDouble
  split <;> simp_all

theorem scalar_eq_ok {s : Scalar} : scalar kind v = .ok s ↔ v = s.toJson := by
  rw [← Scalar.ofJson?_eq_some]
  unfold scalar
  split <;> simp_all

theorem scalarText_eq_ok {text : String} :
    scalarText kind parameter v = .ok text ↔ v.IsSpelt text := by
  unfold scalarText Json.IsSpelt
  simp only [← Scalar.ofJson?_eq_some]
  split <;> simp_all

theorem scalarTexts_eq_ok {texts : List String} : scalarTexts kind parameter v = .ok texts ↔
    List.Forall₂ Json.IsSpelt v.listed texts := by
  unfold scalarTexts Json.listed
  split
  · simp only [mapM_eq_ok_iff, scalarText_eq_ok]
  · simp only [map_eq_ok, scalarText_eq_ok]
    constructor
    · rintro ⟨text, htext, rfl⟩
      exact .cons htext .nil
    · rintro (_ | ⟨htext, _ | _⟩)
      exact ⟨_, htext, rfl⟩

theorem members_eq_ok {params : List (String × Json)} :
    members kind v = .ok params ↔ v = .obj params := by
  unfold members
  split <;> simp_all

theorem fieldName_eq_ok {name field : String} :
    fieldName name = .ok field ↔ Field.checkName name = .ok () ∧ name = field := by
  unfold fieldName
  split <;> simp_all

theorem singleField_eq_ok {field : String} {spec : Json} :
    singleField kind v = .ok (field, spec) ↔
      v = .obj [(field, spec)] ∧ Field.checkName field = .ok () := by
  unfold singleField
  simp only [bind_eq_ok, members_eq_ok]
  constructor
  · rintro ⟨_ | ⟨⟨name, value⟩, _ | _⟩, rfl, h⟩
    · cases h
    · simp only [bind_eq_ok, pure_eq_ok, fieldName_eq_ok] at h
      obtain ⟨_, ⟨hname, rfl⟩, h⟩ := h
      cases h
      exact ⟨rfl, hname⟩
    · cases h
  · rintro ⟨rfl, hname⟩
    refine ⟨_, rfl, ?_⟩
    simp only [bind_eq_ok, pure_eq_ok, fieldName_eq_ok]
    exact ⟨field, ⟨hname, rfl⟩, rfl⟩

theorem require_eq_ok {α : Type} {a? : Option α} {a : α} :
    require kind parameter a? = .ok a ↔ a? = some a := by
  unfold require
  split <;> simp_all

/-- The words for how words are combined are the same for every kind. -/
theorem operator_eq_ok_any {o : Operator} (h : operator kind v = .ok o) (kind' : String) :
    operator kind' v = .ok o := by
  unfold operator at h ⊢
  split at h <;> simp_all

theorem zeroTerms_eq_ok_any {z : ZeroTerms} (h : zeroTerms kind v = .ok z) (kind' : String) :
    zeroTerms kind' v = .ok z := by
  unfold zeroTerms at h ⊢
  split at h <;> simp_all

theorem mode_eq_ok_any {m : MatchMode} (h : mode kind v = .ok m) (kind' : String) :
    mode kind' v = .ok m := by
  unfold mode at h ⊢
  split at h <;> simp_all

end Values

/-! ### Texts -/

/-- What the parameters of a text in one field write. -/
inductive TextWrites (fixed : Bool) : Writing TextParameters
  | query {v text} (h : Json.IsSpelt v text) :
    TextWrites fixed "query" v fun p => { p with text := some text }
  | operator {v o} (h : ∀ kind, operator kind v = .ok o) :
    TextWrites fixed "operator" v fun p => { p with operator := o }
  | zeroTerms {v z} (h : ∀ kind, zeroTerms kind v = .ok z) :
    TextWrites fixed "zero_terms_query" v fun p => { p with zeroTerms := z }
  | boost {v x} (h : Json.IsDouble v x) :
    TextWrites fixed "boost" v fun p => { p with boost := some x }
  | analyzer (v) : TextWrites fixed "analyzer" v fun p => p
  | maxExpansions (v) : TextWrites fixed "max_expansions" v fun p => p
  | mode {v m} (hfixed : fixed = false) (h : ∀ kind, mode kind v = .ok m) :
    TextWrites fixed "type" v fun p => { p with mode := m }

theorem textParameter_eq_ok {kind : String} {fixed : Bool} (p : TextParameters)
    (m : String × Json) (p' : TextParameters) :
    textParameter kind fixed p m = .ok p' ↔ ∃ w, TextWrites fixed m.1 m.2 w ∧ w p = p' := by
  constructor
  · intro h
    unfold textParameter at h
    split at h
    · simp only [bind_eq_ok, pure_eq_ok, scalarText_eq_ok] at h
      obtain ⟨text, htext, h⟩ := h
      exact ⟨_, .query htext, h⟩
    · simp only [bind_eq_ok, pure_eq_ok] at h
      obtain ⟨o, ho, h⟩ := h
      exact ⟨_, .operator (operator_eq_ok_any ho), h⟩
    · simp only [bind_eq_ok, pure_eq_ok] at h
      obtain ⟨z, hz, h⟩ := h
      exact ⟨_, .zeroTerms (zeroTerms_eq_ok_any hz), h⟩
    · simp only [bind_eq_ok, pure_eq_ok, number_eq_ok] at h
      obtain ⟨x, hx, h⟩ := h
      exact ⟨_, .boost hx, h⟩
    · exact ⟨_, .analyzer _, Except.ok.inj h⟩
    · exact ⟨_, .maxExpansions _, Except.ok.inj h⟩
    · split at h
      · next hkey =>
        obtain ⟨rfl, hfixed⟩ := hkey
        simp only [bind_eq_ok, pure_eq_ok] at h
        obtain ⟨m, hm, h⟩ := h
        exact ⟨_, .mode hfixed (mode_eq_ok_any hm), h⟩
      · cases h
  · rintro ⟨w, hw, rfl⟩
    obtain ⟨key, v⟩ := m
    cases hw with
    | query h => simp [textParameter, scalarText_eq_ok.mpr h]
    | operator h => simp [textParameter, h]
    | zeroTerms h => simp [textParameter, h]
    | boost h => simp [textParameter, number_eq_ok.mpr h]
    | analyzer => simp [textParameter]
    | maxExpansions => simp [textParameter]
    | mode hfixed h => simp [textParameter, hfixed, h]

theorem TextWrites.of_query {fixed : Bool} {key : String} {v : Json}
    {w : TextParameters → TextParameters} (h : TextWrites fixed key v w) (hkey : key = "query") :
    ∃ text, v.IsSpelt text ∧ w = fun p => { p with text := some text } := by
  cases h with
  | query h => exact ⟨_, h, rfl⟩
  | _ => exact absurd hkey (by decide)

/-- Where the kind of a query settles the mode, no parameter changes it. -/
theorem TextWrites.mode_of_run {params : List (String × Json)} {s r : TextParameters}
    (h : (TextWrites true).Run params s r) : r.mode = s.mode := by
  have hother : ∀ key v w, TextWrites true key v w → ¬ False → ∀ s, (w s).mode = s.mode := by
    intro key v w hw _ s
    cases hw with
    | mode hfixed => cases hfixed
    | _ => rfl
  rcases h.exists_last hother with ⟨-, hmode⟩ | ⟨_, _, _, _, _, _, hsets, _⟩
  · exact hmode
  · exact hsets.elim

/-- **When a text in one field is read.**  The kind of the query settles the mode at most, and
a text that stands alone is the parameter `query`. -/
theorem fullText_eq_ok {kind : String} {fixed : Option MatchMode} {body : Json} {p : Predicate} :
    fullText kind fixed body = .ok p ↔ ∃ field spec r text, body = .obj [(field, spec)] ∧
      Field.checkName field = .ok () ∧
      (TextWrites fixed.isSome).Run (spec.parameters "query") { mode := fixed.getD .words } r ∧
      r.text = some text ∧
      p = .fullText field ⟨text, r.operator, r.zeroTerms, r.mode⟩ r.boost := by
  simp only [fullText, TextParameters.finish, bind_eq_ok]
  constructor
  · rintro ⟨⟨field, spec⟩, hfield, h⟩
    obtain ⟨rfl, hname⟩ := singleField_eq_ok.mp hfield
    split at h
    · next params hspec =>
      obtain rfl : spec = .obj params := hspec
      simp only [bind_eq_ok, pure_eq_ok, require_eq_ok] at h
      obtain ⟨r, hrun, query, ⟨text, htext, rfl⟩, rfl⟩ := h
      exact ⟨field, _, r, text, rfl, hname, (Writing.foldlM_eq_ok textParameter_eq_ok).mp hrun,
        htext, rfl⟩
    · next hspec =>
      simp only [bind_eq_ok, pure_eq_ok, require_eq_ok, scalarText_eq_ok] at h
      obtain ⟨text, htext, query, ⟨text', htext', rfl⟩, rfl⟩ := h
      cases htext'
      exact ⟨field, spec, _, text, rfl, hname, (Writing.run_alone hspec).mpr ⟨_, .query htext, rfl⟩,
        rfl, rfl⟩
  · rintro ⟨field, spec, r, text, rfl, hname, hrun, htext, rfl⟩
    refine ⟨_, singleField_eq_ok.mpr ⟨rfl, hname⟩, ?_⟩
    split
    · next params hspec =>
      obtain rfl : spec = .obj params := hspec
      simp only [bind_eq_ok, pure_eq_ok, require_eq_ok]
      exact ⟨r, (Writing.foldlM_eq_ok textParameter_eq_ok).mpr hrun, _, ⟨text, htext, rfl⟩, rfl⟩
    · next hspec =>
      obtain ⟨w, hw, rfl⟩ := (Writing.run_alone hspec).mp hrun
      obtain ⟨text', htext', rfl⟩ := hw.of_query rfl
      cases htext
      simp only [bind_eq_ok, pure_eq_ok, require_eq_ok, scalarText_eq_ok]
      exact ⟨text, htext', _, ⟨text, rfl, rfl⟩, rfl⟩

/-- What the parameters of a text in several fields write. -/
inductive MultiFieldWrites : Writing TextParameters
  | query {v text} (h : Json.IsSpelt v text) :
    MultiFieldWrites "query" v fun p => { p with text := some text }
  | fields {items fs} (h : List.Forall₂ (fun item f => fieldItem item = .ok f) items fs) :
    MultiFieldWrites "fields" (.arr items) fun p => { p with fields := p.fields ++ fs }
  | mode {v m} (h : multiFieldMode "multi_match" v = .ok m) :
    MultiFieldWrites "type" v fun p => { p with mode := m }
  | operator {v o} (h : operator "multi_match" v = .ok o) :
    MultiFieldWrites "operator" v fun p => { p with operator := o }
  | zeroTerms {v z} (h : zeroTerms "multi_match" v = .ok z) :
    MultiFieldWrites "zero_terms_query" v fun p => { p with zeroTerms := z }
  | boost {v x} (h : Json.IsDouble v x) : MultiFieldWrites "boost" v fun p => p
  | analyzer (v) : MultiFieldWrites "analyzer" v fun p => p
  | tieBreaker (v) : MultiFieldWrites "tie_breaker" v fun p => p

theorem multiFieldParameter_eq_ok (p : TextParameters) (m : String × Json) (p' : TextParameters) :
    multiFieldParameter p m = .ok p' ↔ ∃ w, MultiFieldWrites m.1 m.2 w ∧ w p = p' := by
  constructor
  · intro h
    unfold multiFieldParameter at h
    split at h
    · simp only [bind_eq_ok, pure_eq_ok, scalarText_eq_ok] at h
      obtain ⟨text, htext, h⟩ := h
      exact ⟨_, .query htext, h⟩
    · simp only [bind_eq_ok, pure_eq_ok, mapM_eq_ok_iff] at h
      obtain ⟨fs, hfs, h⟩ := h
      exact ⟨_, .fields hfs, h⟩
    · cases h
    · simp only [bind_eq_ok, pure_eq_ok] at h
      obtain ⟨m, hm, h⟩ := h
      exact ⟨_, .mode hm, h⟩
    · simp only [bind_eq_ok, pure_eq_ok] at h
      obtain ⟨o, ho, h⟩ := h
      exact ⟨_, .operator ho, h⟩
    · simp only [bind_eq_ok, pure_eq_ok] at h
      obtain ⟨z, hz, h⟩ := h
      exact ⟨_, .zeroTerms hz, h⟩
    · simp only [bind_eq_ok, pure_eq_ok, number_eq_ok] at h
      obtain ⟨x, hx, h⟩ := h
      exact ⟨_, .boost hx, h⟩
    · exact ⟨_, .analyzer _, Except.ok.inj h⟩
    · exact ⟨_, .tieBreaker _, Except.ok.inj h⟩
    · cases h
  · rintro ⟨w, hw, rfl⟩
    obtain ⟨key, v⟩ := m
    cases hw with
    | query h => simp [multiFieldParameter, scalarText_eq_ok.mpr h]
    | fields h => simp [multiFieldParameter, mapM_eq_ok_iff.mpr h]
    | mode h => simp [multiFieldParameter, h]
    | operator h => simp [multiFieldParameter, h]
    | zeroTerms h => simp [multiFieldParameter, h]
    | boost h => simp [multiFieldParameter, number_eq_ok.mpr h]
    | analyzer => simp [multiFieldParameter]
    | tieBreaker => simp [multiFieldParameter]

/-- **When a text in several fields is read.** -/
theorem multiField_eq_ok {body : Json} {p : Predicate} :
    multiField body = .ok p ↔ ∃ params r text, body = .obj params ∧
      MultiFieldWrites.Run params {} r ∧ r.text = some text ∧ r.fields ≠ [] ∧
      p = .multiField r.fields ⟨text, r.operator, r.zeroTerms, r.mode⟩ := by
  unfold multiField TextParameters.finish
  simp only [bind_eq_ok, members_eq_ok, Writing.foldlM_eq_ok multiFieldParameter_eq_ok,
    pure_eq_ok, require_eq_ok]
  constructor
  · rintro ⟨params, rfl, r, hrun, query, ⟨text, htext, rfl⟩, h⟩
    split at h
    · cases h
    · next hne =>
      cases h
      exact ⟨params, r, text, rfl, hrun, htext, by simpa using hne, rfl⟩
  · rintro ⟨params, r, text, rfl, hrun, htext, hne, rfl⟩
    refine ⟨params, rfl, r, hrun, _, ⟨text, htext, rfl⟩, ?_⟩
    rw [if_neg (by simpa using hne)]
    rfl

/-! ### Comparisons -/

/-- What the parameters of a query for a value write; `R` says what a value is read as. -/
inductive ValueWrites {α : Type} (isValue : String → Bool) (R : Json → α → Prop) :
    Writing (ValueParameters α)
  | value {key v a} (hkey : isValue key = true) (h : R v a) :
    ValueWrites isValue R key v fun p => { p with value := some a }
  | boost {v x} (hkey : isValue "boost" = false) (h : Json.IsDouble v x) :
    ValueWrites isValue R "boost" v fun p => { p with boost := some x }

section Values

variable {α : Type} {kind : String} {isValue : String → Bool}
  {readValue : String → Json → Reading α} {R : Json → α → Prop}

theorem ValueWrites.of_isValue {key : String} {v : Json}
    {w : ValueParameters α → ValueParameters α} (h : ValueWrites isValue R key v w)
    (hkey : isValue key = true) : ∃ a, R v a ∧ w = fun p => { p with value := some a } := by
  cases h with
  | value _ h => exact ⟨_, h, rfl⟩
  | boost hboost =>
    rw [hboost] at hkey
    cases hkey

/-- Values are read as `R` says, whatever the parameter. -/
def ReadsAs (readValue : String → Json → Reading α) (R : Json → α → Prop) : Prop :=
  ∀ key v a, readValue key v = .ok a ↔ R v a

theorem readsAs_scalar : ReadsAs (fun _ => scalar kind) fun v s => v = s.toJson :=
  fun _ _ _ => scalar_eq_ok

theorem readsAs_scalarText : ReadsAs (scalarText kind) Json.IsSpelt :=
  fun _ _ _ => scalarText_eq_ok

theorem valueParameter_eq_ok (hread : ReadsAs readValue R) (p : ValueParameters α)
    (m : String × Json) (p' : ValueParameters α) :
    valueParameter kind isValue readValue p m = .ok p' ↔
      ∃ w, ValueWrites isValue R m.1 m.2 w ∧ w p = p' := by
  obtain ⟨key, v⟩ := m
  constructor
  · intro h
    simp only [valueParameter] at h
    split at h
    · next hkey =>
      obtain ⟨a, ha, h⟩ := bind_eq_ok.mp h
      exact ⟨_, .value hkey ((hread _ _ _).mp ha), Except.ok.inj h⟩
    split at h
    · next hkey hboost =>
      subst hboost
      obtain ⟨x, hx, h⟩ := bind_eq_ok.mp h
      exact ⟨_, .boost (by simpa using hkey) (number_eq_ok.mp hx), Except.ok.inj h⟩
    · cases h
  · rintro ⟨w, hw, rfl⟩
    cases hw with
    | value hkey h => simp [valueParameter, hkey, (hread _ _ _).mpr h]
    | boost hkey h => simp [valueParameter, hkey, number_eq_ok.mpr h]

theorem foldlM_valueParameter_eq_ok (hread : ReadsAs readValue R) {params : List (String × Json)}
    {p p' : ValueParameters α} :
    params.foldlM (valueParameter kind isValue readValue) p = .ok p' ↔
      (ValueWrites isValue R).Run params p p' :=
  Writing.foldlM_eq_ok (valueParameter_eq_ok hread)

end Values

/-- **When a comparison with a value is read.** -/
theorem term_eq_ok {body : Json} {p : Predicate} : term body = .ok p ↔
    ∃ field spec r value, body = .obj [(field, spec)] ∧ Field.checkName field = .ok () ∧
      (ValueWrites (· = "value") fun v s => v = Scalar.toJson s).Run
        (spec.parameters "value") {} r ∧
      r.value = some value ∧ p = .term field value r.boost := by
  simp only [term, bind_eq_ok]
  constructor
  · rintro ⟨⟨field, spec⟩, hfield, h⟩
    obtain ⟨rfl, hname⟩ := singleField_eq_ok.mp hfield
    split at h
    · next params hspec =>
      obtain rfl : spec = .obj params := hspec
      simp only [bind_eq_ok, pure_eq_ok, require_eq_ok] at h
      obtain ⟨r, hrun, value, hvalue, rfl⟩ := h
      exact ⟨field, _, r, value, rfl, hname, (foldlM_valueParameter_eq_ok readsAs_scalar).mp hrun,
        hvalue, rfl⟩
    · next hspec =>
      simp only [bind_eq_ok, pure_eq_ok, scalar_eq_ok] at h
      obtain ⟨value, hvalue, rfl⟩ := h
      exact ⟨field, spec, _, value, rfl, hname,
        (Writing.run_alone hspec).mpr ⟨_, .value rfl hvalue, rfl⟩, rfl, rfl⟩
  · rintro ⟨field, spec, r, value, rfl, hname, hrun, hvalue, rfl⟩
    refine ⟨_, singleField_eq_ok.mpr ⟨rfl, hname⟩, ?_⟩
    split
    · next params hspec =>
      obtain rfl : spec = .obj params := hspec
      simp only [bind_eq_ok, pure_eq_ok, require_eq_ok]
      exact ⟨r, (foldlM_valueParameter_eq_ok readsAs_scalar).mpr hrun, value, hvalue, rfl⟩
    · next hspec =>
      obtain ⟨w, hw, rfl⟩ := (Writing.run_alone hspec).mp hrun
      obtain ⟨value', hvalue', rfl⟩ := hw.of_isValue rfl
      cases hvalue
      simp only [bind_eq_ok, pure_eq_ok, scalar_eq_ok]
      exact ⟨value, hvalue', rfl⟩

/-- **When a prefix is read.** -/
theorem startsWith_eq_ok {body : Json} {p : Predicate} : startsWith body = .ok p ↔
    ∃ field spec r text, body = .obj [(field, spec)] ∧ Field.checkName field = .ok () ∧
      (ValueWrites (fun key => key = "value" || key = "prefix") Json.IsSpelt).Run
        (spec.parameters "value") {} r ∧
      r.value = some text ∧ p = .startsWith field text := by
  simp only [startsWith, bind_eq_ok]
  constructor
  · rintro ⟨⟨field, spec⟩, hfield, h⟩
    obtain ⟨rfl, hname⟩ := singleField_eq_ok.mp hfield
    split at h
    · next params hspec =>
      obtain rfl : spec = .obj params := hspec
      simp only [bind_eq_ok, pure_eq_ok, require_eq_ok] at h
      obtain ⟨r, hrun, text, htext, rfl⟩ := h
      exact ⟨field, _, r, text, rfl, hname,
        (foldlM_valueParameter_eq_ok readsAs_scalarText).mp hrun, htext, rfl⟩
    · next hspec =>
      simp only [bind_eq_ok, pure_eq_ok, scalarText_eq_ok] at h
      obtain ⟨text, htext, rfl⟩ := h
      exact ⟨field, spec, _, text, rfl, hname,
        (Writing.run_alone hspec).mpr ⟨_, .value rfl htext, rfl⟩, rfl, rfl⟩
  · rintro ⟨field, spec, r, text, rfl, hname, hrun, htext, rfl⟩
    refine ⟨_, singleField_eq_ok.mpr ⟨rfl, hname⟩, ?_⟩
    split
    · next params hspec =>
      obtain rfl : spec = .obj params := hspec
      simp only [bind_eq_ok, pure_eq_ok, require_eq_ok]
      exact ⟨r, (foldlM_valueParameter_eq_ok readsAs_scalarText).mpr hrun, text, htext, rfl⟩
    · next hspec =>
      obtain ⟨w, hw, rfl⟩ := (Writing.run_alone hspec).mp hrun
      obtain ⟨text', htext', rfl⟩ := hw.of_isValue rfl
      cases htext
      simp only [bind_eq_ok, pure_eq_ok, scalarText_eq_ok]
      exact ⟨text, htext', rfl⟩

/-- **When a type is read.** -/
theorem docType_eq_ok {body : Json} {p : Predicate} : docType body = .ok p ↔
    ∃ params r value, body = .obj params ∧
      (ValueWrites (· = "value") Json.IsSpelt).Run params {} r ∧
      r.value = some value ∧ p = .docType value r.boost := by
  simp only [docType, bind_eq_ok, members_eq_ok, pure_eq_ok, require_eq_ok,
    foldlM_valueParameter_eq_ok readsAs_scalarText]
  constructor
  · rintro ⟨params, rfl, r, hrun, value, hvalue, rfl⟩
    exact ⟨params, r, value, rfl, hrun, hvalue, rfl⟩
  · rintro ⟨params, r, value, rfl, hrun, hvalue, rfl⟩
    exact ⟨params, rfl, r, hrun, value, hvalue, rfl⟩

/-- A value is the name of a field. -/
def NamesField (v : Json) (field : String) : Prop :=
  v = .str field ∧ Field.checkName field = .ok ()

/-- Only a string names a field. -/
theorem readsAs_fieldName {read : String → Json → Reading String}
    (hname : ∀ key name, read key (.str name) = fieldName name)
    (hother : ∀ key v, v.string? = none → read key v = .error .presentNotAString) :
    ReadsAs read NamesField := by
  intro key v field
  unfold NamesField
  cases v with
  | str name =>
    rw [hname, fieldName_eq_ok, Json.str.injEq]
    constructor
    · rintro ⟨hname, rfl⟩
      exact ⟨rfl, hname⟩
    · rintro ⟨rfl, hname⟩
      exact ⟨hname, rfl⟩
  | _ =>
    rw [hother _ _ rfl]
    simp

/-- **When a query for a field with a value is read.** -/
theorem present_eq_ok {body : Json} {p : Predicate} : present body = .ok p ↔
    ∃ params r field, body = .obj params ∧
      (ValueWrites (· = "field") NamesField).Run params {} r ∧
      r.value = some field ∧ p = .present field := by
  simp only [present, bind_eq_ok, members_eq_ok, pure_eq_ok, require_eq_ok]
  constructor
  · rintro ⟨params, rfl, r, hrun, field, hfield, rfl⟩
    rw [foldlM_valueParameter_eq_ok
      (readsAs_fieldName (fun _ _ => rfl) fun _ v hv => by simp only [hv])] at hrun
    exact ⟨params, r, field, rfl, hrun, hfield, rfl⟩
  · rintro ⟨params, r, field, rfl, hrun, hfield, rfl⟩
    refine ⟨params, rfl, r, ?_, field, hfield, rfl⟩
    rwa [foldlM_valueParameter_eq_ok
      (readsAs_fieldName (fun _ _ => rfl) fun _ v hv => by simp only [hv])]

/-- **When a query for every document is read.** -/
theorem matchAll_eq_ok {body : Json} {p : Predicate} : matchAll body = .ok p ↔
    ∃ params r, body = .obj params ∧
      (ValueWrites (fun _ => false) fun _ (_ : Unit) => False).Run params {} r ∧ p = .matchAll := by
  have hread : ReadsAs (fun key (_ : Json) => .error (.unknownParameter "match_all" key))
      fun _ (_ : Unit) => False := by
    intro key v a
    simp
  simp only [matchAll, bind_eq_ok, members_eq_ok, pure_eq_ok, foldlM_valueParameter_eq_ok hread]
  constructor
  · rintro ⟨params, rfl, r, hrun, rfl⟩
    exact ⟨params, r, rfl, hrun, rfl⟩
  · rintro ⟨params, r, rfl, hrun, rfl⟩
    exact ⟨params, rfl, r, hrun, rfl⟩

/-- What the parameters of a query for identifiers write. -/
inductive IdsWrites : Writing (List String × Option (List String))
  | types {key v texts} (hkey : key = "type" ∨ key = "types")
    (h : List.Forall₂ Json.IsSpelt v.listed texts) : IdsWrites key v fun p => (texts, p.2)
  | values {v texts} (h : List.Forall₂ Json.IsSpelt v.listed texts) :
    IdsWrites "values" v fun p => (p.1, some texts)
  | boost {v x} (h : Json.IsDouble v x) : IdsWrites "boost" v fun p => p

theorem idsParameter_eq_ok (p : List String × Option (List String)) (m : String × Json)
    (p' : List String × Option (List String)) :
    idsParameter p m = .ok p' ↔ ∃ w, IdsWrites m.1 m.2 w ∧ w p = p' := by
  obtain ⟨key, v⟩ := m
  constructor
  · intro h
    simp only [idsParameter] at h
    split at h
    · next hkey =>
      obtain ⟨texts, htexts, h⟩ := bind_eq_ok.mp h
      exact ⟨_, .types hkey (scalarTexts_eq_ok.mp htexts), Except.ok.inj h⟩
    split at h
    · next hkey =>
      subst hkey
      obtain ⟨texts, htexts, h⟩ := bind_eq_ok.mp h
      exact ⟨_, .values (scalarTexts_eq_ok.mp htexts), Except.ok.inj h⟩
    split at h
    · next hkey =>
      subst hkey
      obtain ⟨x, hx, h⟩ := bind_eq_ok.mp h
      exact ⟨_, .boost (number_eq_ok.mp hx), Except.ok.inj h⟩
    · cases h
  · rintro ⟨w, hw, rfl⟩
    cases hw with
    | types hkey h => simp [idsParameter, hkey, scalarTexts_eq_ok.mpr h]
    | values h => simp [idsParameter, scalarTexts_eq_ok.mpr h]
    | boost h => simp [idsParameter, number_eq_ok.mpr h]

/-- **When a query for identifiers is read.** -/
theorem ids_eq_ok {body : Json} {p : Predicate} : ids body = .ok p ↔
    ∃ params r values, body = .obj params ∧ IdsWrites.Run params ([], none) r ∧
      r.2 = some values ∧ p = .ids r.1 values := by
  unfold ids
  simp only [bind_eq_ok, members_eq_ok, Writing.foldlM_eq_ok idsParameter_eq_ok, pure_eq_ok,
    require_eq_ok]
  constructor
  · rintro ⟨params, rfl, r, hrun, values, hvalues, rfl⟩
    exact ⟨params, r, values, rfl, hrun, hvalues, rfl⟩
  · rintro ⟨params, r, values, rfl, hrun, hvalues, rfl⟩
    exact ⟨params, rfl, r, hrun, values, hvalues, rfl⟩

/-! ### Members besides the weight -/

/-- The members besides the weight. -/
def besidesBoost (ms : List (String × Json)) : List (String × Json) :=
  ms.filter fun m => m.1 ≠ "boost"

/-- The weight is a number, where it is given. -/
def BoostIsNumber (ms : List (String × Json)) : Prop :=
  ∀ m ∈ ms, m.1 = "boost" → ∃ x, m.2.IsDouble x

section Members

variable {key : String} {v : Json} {ms : List (String × Json)}

theorem besidesBoost_cons_of_eq (h : key = "boost") :
    besidesBoost ((key, v) :: ms) = besidesBoost ms := by
  simp [besidesBoost, h]

theorem besidesBoost_cons_of_ne (h : key ≠ "boost") :
    besidesBoost ((key, v) :: ms) = (key, v) :: besidesBoost ms := by
  simp [besidesBoost, h]

theorem boostIsNumber_cons : BoostIsNumber ((key, v) :: ms) ↔
    (key = "boost" → ∃ x, v.IsDouble x) ∧ BoostIsNumber ms :=
  List.forall_mem_cons

/-- The members for bounds, under the names of their comparisons. -/
def boundMembers (bounds : List (RangeOp × Scalar)) : List (String × Json) :=
  bounds.map fun b => (b.1.key, b.2.toJson)

theorem bound_eq_ok {bounds bounds' : List (RangeOp × Scalar)} :
    bound bounds (key, v) = .ok bounds' ↔
      (key = "boost" ∧ (∃ x, v.IsDouble x) ∧ bounds = bounds') ∨
      ∃ op s, key = op.key ∧ v = Scalar.toJson s ∧ bounds ++ [(op, s)] = bounds' := by
  simp only [bound]
  split
  · next op hop =>
    obtain rfl := RangeOp.ofKey?_eq_some.mp hop
    simp only [bind_eq_ok, pure_eq_ok, scalar_eq_ok]
    constructor
    · rintro ⟨s, rfl, rfl⟩
      exact .inr ⟨op, s, rfl, rfl, rfl⟩
    · rintro (⟨hkey, -⟩ | ⟨op', s, hkey, rfl, rfl⟩)
      · exact absurd hkey op.key_ne_boost
      · rw [RangeOp.key_injective hkey]
        exact ⟨s, rfl, rfl⟩
  · next hop =>
    have hnone : ∀ op : RangeOp, key ≠ op.key := fun op h => by
      rw [RangeOp.ofKey?_eq_some.mpr h] at hop
      cases hop
    split
    · next hkey =>
      simp only [bind_eq_ok, pure_eq_ok, number_eq_ok]
      constructor
      · rintro ⟨x, hx, rfl⟩
        exact .inl ⟨hkey, ⟨x, hx⟩, rfl⟩
      · rintro (⟨-, ⟨x, hx⟩, rfl⟩ | ⟨op, _, h, -⟩)
        · exact ⟨x, hx, rfl⟩
        · exact absurd h (hnone op)
    · next hkey =>
      refine iff_of_false (by simp) ?_
      rintro (⟨h, -⟩ | ⟨op, _, h, -⟩)
      · exact hkey h
      · exact hnone op h

theorem foldlM_bound_eq_ok {bounds bounds' : List (RangeOp × Scalar)} :
    ms.foldlM bound bounds = .ok bounds' ↔ BoostIsNumber ms ∧
      ∃ more, besidesBoost ms = boundMembers more ∧ bounds ++ more = bounds' := by
  induction ms generalizing bounds with
  | nil => simp [besidesBoost, boundMembers, BoostIsNumber]
  | cons m ms ih =>
    obtain ⟨key, v⟩ := m
    rw [List.foldlM_cons, bind_eq_ok, boostIsNumber_cons]
    simp only [ih, bound_eq_ok]
    constructor
    · rintro ⟨_, ⟨rfl, hx, rfl⟩ | ⟨op, s, rfl, rfl, rfl⟩, hms, more, hmore, rfl⟩
      · rw [besidesBoost_cons_of_eq rfl]
        exact ⟨⟨fun _ => hx, hms⟩, more, hmore, rfl⟩
      · refine ⟨⟨fun h => absurd h op.key_ne_boost, hms⟩, (op, s) :: more, ?_, by simp⟩
        rw [besidesBoost_cons_of_ne op.key_ne_boost, hmore]
        rfl
    · rintro ⟨⟨hboost, hms⟩, more, hmore, rfl⟩
      by_cases hkey : key = "boost"
      · rw [besidesBoost_cons_of_eq hkey] at hmore
        exact ⟨bounds, .inl ⟨hkey, hboost hkey, rfl⟩, hms, more, hmore, rfl⟩
      · rw [besidesBoost_cons_of_ne hkey] at hmore
        obtain ⟨⟨op, s⟩, rest, rfl, hm, hrest⟩ := List.map_eq_cons_iff.mp hmore.symm
        obtain ⟨rfl, rfl⟩ := Prod.mk.inj hm
        exact ⟨bounds ++ [(op, s)], .inr ⟨op, s, rfl, rfl, rfl⟩, hms, rest, hrest.symm, by simp⟩

theorem mapM_scalar_eq_ok {kind : String} {items : List Json} {values : List Scalar} :
    items.mapM (scalar kind) = .ok values ↔ items = values.map Scalar.toJson := by
  simp only [mapM_eq_ok_iff, scalar_eq_ok]
  rw [← List.forall₂_map_right_iff (R := Eq), List.forall₂_eq_eq_eq]

theorem termsMember_eq_ok {target target' : Option (String × List Scalar)} :
    termsMember target (key, v) = .ok target' ↔
      (key = "boost" ∧ (∃ x, v.IsDouble x) ∧ target = target') ∨
      (key ≠ "boost" ∧ target = none ∧ ∃ values, v = .arr (values.map Scalar.toJson) ∧
        Field.checkName key = .ok () ∧ some (key, values) = target') := by
  simp only [termsMember]
  split
  · next hkey =>
    simp only [bind_eq_ok, pure_eq_ok, number_eq_ok]
    constructor
    · rintro ⟨x, hx, rfl⟩
      exact .inl ⟨hkey, ⟨x, hx⟩, rfl⟩
    · rintro (⟨-, ⟨x, hx⟩, rfl⟩ | ⟨hne, -⟩)
      · exact ⟨x, hx, rfl⟩
      · exact absurd hkey hne
  · next hkey =>
    split
    · next hsome =>
      refine iff_of_false (by simp) ?_
      rintro (⟨h, -⟩ | ⟨-, rfl, -⟩)
      · exact hkey h
      · cases hsome
    · next hnone =>
      have htarget : target = none := by simpa using hnone
      split
      · simp only [bind_eq_ok, pure_eq_ok, mapM_scalar_eq_ok, fieldName_eq_ok]
        constructor
        · rintro ⟨values, rfl, name, ⟨hname, rfl⟩, rfl⟩
          exact .inr ⟨hkey, htarget, values, rfl, hname, rfl⟩
        · rintro (⟨h, -⟩ | ⟨-, -, values, hv, hname, rfl⟩)
          · exact absurd h hkey
          · cases hv
            exact ⟨values, rfl, key, ⟨hname, rfl⟩, rfl⟩
      · next hv =>
        refine iff_of_false (by simp) ?_
        rintro (⟨h, -⟩ | ⟨-, -, values, rfl, -⟩)
        · exact hkey h
        · exact hv _ rfl

theorem foldlM_termsMember_some {target target' : String × List Scalar} :
    ms.foldlM termsMember (some target) = .ok (some target') ↔
      BoostIsNumber ms ∧ besidesBoost ms = [] ∧ target = target' := by
  induction ms with
  | nil => simp [besidesBoost, BoostIsNumber]
  | cons m ms ih =>
    obtain ⟨key, v⟩ := m
    rw [List.foldlM_cons, bind_eq_ok, boostIsNumber_cons]
    simp only [termsMember_eq_ok]
    constructor
    · rintro ⟨_, ⟨rfl, hx, rfl⟩ | ⟨-, h, -⟩, hms⟩
      · obtain ⟨hboost, hrest, rfl⟩ := ih.mp hms
        rw [besidesBoost_cons_of_eq rfl]
        exact ⟨⟨fun _ => hx, hboost⟩, hrest, rfl⟩
      · cases h
    · rintro ⟨⟨hboost, hms⟩, hrest, rfl⟩
      by_cases hkey : key = "boost"
      · rw [besidesBoost_cons_of_eq hkey] at hrest
        exact ⟨_, .inl ⟨hkey, hboost hkey, rfl⟩, ih.mpr ⟨hms, hrest, rfl⟩⟩
      · rw [besidesBoost_cons_of_ne hkey] at hrest
        cases hrest

theorem foldlM_termsMember_none {target : String × List Scalar} :
    ms.foldlM termsMember none = .ok (some target) ↔ BoostIsNumber ms ∧
      besidesBoost ms = [(target.1, .arr (target.2.map Scalar.toJson))] ∧
      Field.checkName target.1 = .ok () := by
  induction ms with
  | nil => exact iff_of_false (by simp) (by simp [besidesBoost])
  | cons m ms ih =>
    obtain ⟨key, v⟩ := m
    rw [List.foldlM_cons, bind_eq_ok, boostIsNumber_cons]
    simp only [termsMember_eq_ok]
    constructor
    · rintro ⟨_, ⟨rfl, hx, rfl⟩ | ⟨hkey, -, values, rfl, hname, rfl⟩, hms⟩
      · obtain ⟨hboost, hrest, hname⟩ := ih.mp hms
        rw [besidesBoost_cons_of_eq rfl]
        exact ⟨⟨fun _ => hx, hboost⟩, hrest, hname⟩
      · obtain ⟨hboost, hrest, rfl⟩ := foldlM_termsMember_some.mp hms
        rw [besidesBoost_cons_of_ne hkey, hrest]
        exact ⟨⟨fun h => absurd h hkey, hboost⟩, rfl, hname⟩
    · rintro ⟨⟨hboost, hms⟩, hrest, hname⟩
      by_cases hkey : key = "boost"
      · rw [besidesBoost_cons_of_eq hkey] at hrest
        exact ⟨_, .inl ⟨hkey, hboost hkey, rfl⟩, ih.mpr ⟨hms, hrest, hname⟩⟩
      · rw [besidesBoost_cons_of_ne hkey] at hrest
        obtain ⟨hm, hnil⟩ := List.cons.inj hrest
        obtain ⟨rfl, rfl⟩ := Prod.mk.inj hm
        refine ⟨some target, .inr ⟨hkey, trivial, target.2, rfl, hname, rfl⟩, ?_⟩
        exact foldlM_termsMember_some.mpr ⟨hms, hnil, rfl⟩

end Members

/-- **When a comparison with several values is read.** -/
theorem terms_eq_ok {body : Json} {p : Predicate} : terms body = .ok p ↔
    ∃ params field values, body = .obj params ∧ BoostIsNumber params ∧
      besidesBoost params = [(field, .arr (values.map Scalar.toJson))] ∧
      Field.checkName field = .ok () ∧ p = .terms field values := by
  simp only [terms, bind_eq_ok, members_eq_ok]
  constructor
  · rintro ⟨params, rfl, target, hfold, h⟩
    cases target with
    | none => cases h
    | some target =>
      cases h
      obtain ⟨hboost, hrest, hname⟩ := foldlM_termsMember_none.mp hfold
      exact ⟨params, target.1, target.2, rfl, hboost, hrest, hname, rfl⟩
  · rintro ⟨params, field, values, rfl, hboost, hrest, hname, rfl⟩
    exact ⟨params, rfl, some (field, values),
      foldlM_termsMember_none.mpr ⟨hboost, hrest, hname⟩, rfl⟩

/-- **When a range is read.** -/
theorem range_eq_ok {body : Json} {p : Predicate} : range body = .ok p ↔
    ∃ field params bounds, body = .obj [(field, .obj params)] ∧
      Field.checkName field = .ok () ∧ BoostIsNumber params ∧
      besidesBoost params = boundMembers bounds ∧ bounds ≠ [] ∧ p = .range field bounds := by
  simp only [range, bind_eq_ok, members_eq_ok, foldlM_bound_eq_ok]
  constructor
  · rintro ⟨⟨field, spec⟩, hfield, params, rfl, bounds, ⟨hboost, more, hmore, rfl⟩, h⟩
    obtain ⟨rfl, hname⟩ := singleField_eq_ok.mp hfield
    split at h
    · cases h
    · next hne =>
      cases h
      exact ⟨field, params, more, rfl, hname, hboost, hmore, by simpa using hne, rfl⟩
  · rintro ⟨field, params, bounds, rfl, hname, hboost, hmore, hne, rfl⟩
    refine ⟨_, singleField_eq_ok.mpr ⟨rfl, hname⟩, params, rfl, bounds,
      ⟨hboost, bounds, hmore, rfl⟩, ?_⟩
    rw [if_neg (by simpa using hne)]
    rfl

end Query

end DocSearch
