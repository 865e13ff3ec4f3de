import DocSearch.Sort
import DocSearch.Proofs.Steps
import Mathlib

/-!
# What a sort asks for

An entry of a sort is the name of a field, alone or with a direction beside it.  Which
entries a strict reader takes is said here by their shapes, without the reader: the direction
is a word in any case of letters, and an object that gives none sorts up.

One more shape is taken than the documented ones: where the member `order` of the options is
no string, it is passed over as if it were not there, also by the strict reader, which refuses
the same value in the place of the options.

## Main definitions

* `SortClause.Spells` — a text is a word, the case of letters aside.
* `SortClause.Asks` — the clause that an entry of a documented shape asks for.
* `SortClause.PassesOver` — the clause of an entry whose `order` is no string.

## Main results

* `SortClause.ofEntry_eq_ok` — the entries that are read, and what they give.
* `SortClause.ofJson_strict_eq_ok` — the clauses of a strict reading, shape by shape.
* `SortClause.ofJson_lenient` — a lenient reading is a strict one of the entries that can be read.
* `SortClause.ofJson_by_shapes` — what both readers make of every value.
* `SortClause.strict_passes_over_order` — a direction that is a number is not refused.
-/

namespace DocSearch.SortClause

open Steps

/-! ### Words in any case of letters -/

/-- A text is a word up to the case of ASCII letters. -/
def Spells (word text : String) : Prop :=
  List.Forall₂ (fun w c => c = w ∨ c = w.toUpper) word.toList text.toList

/-- The word for a direction. -/
def orderWord (ascending : Bool) : String := if ascending then "asc" else "desc"

theorem toNat_toLower (c : Char) :
    c.toLower.toNat = if 65 ≤ c.toNat ∧ c.toNat ≤ 90 then c.toNat + 32 else c.toNat := by
  by_cases h : 65 ≤ c.toNat ∧ c.toNat ≤ 90
  · rw [if_pos h, Char.toLower, dif_pos (by simpa [UInt32.le_iff_toNat_le] using h)]
    simp
    omega
  · rw [if_neg h, Char.toLower, dif_neg (by simpa [UInt32.le_iff_toNat_le] using h)]

theorem toLower_eq_iff {w : Char} (hw : w.isLower) (c : Char) :
    c.toLower = w ↔ c = w ∨ c = w.toUpper := by
  have hletter : 97 ≤ w.toNat ∧ w.toNat ≤ 122 := by
    simpa [Char.isLower, UInt32.le_iff_toNat_le] using hw
  have hupper : w.toUpper.toNat = w.toNat - 32 := by
    simp [Char.toUpper, UInt32.le_iff_toNat_le, hletter]
    omega
  rw [← Char.toNat_inj, ← Char.toNat_inj, ← Char.toNat_inj, toNat_toLower, hupper]
  split <;> omega

theorem map_toLower_eq_iff {ws : List Char} (hws : ∀ w ∈ ws, w.isLower) (cs : List Char) :
    cs.map Char.toLower = ws ↔ List.Forall₂ (fun w c => c = w ∨ c = w.toUpper) ws cs := by
  induction ws generalizing cs with
  | nil => simp
  | cons w ws ih =>
    rw [List.forall_mem_cons] at hws
    cases cs with
    | nil => simp
    | cons c cs =>
      rw [List.map_cons, List.cons.injEq, List.forall₂_cons, toLower_eq_iff hws.1, ih hws.2]

theorem asciiLower_eq_iff {word : String} (hword : ∀ w ∈ word.toList, w.isLower) (text : String) :
    Text.asciiLower text = word ↔ Spells word text := by
  rw [Spells, ← map_toLower_eq_iff hword, Text.asciiLower, ← String.toList_inj,
    String.toList_ofList]

theorem readOrder_eq_ok {text : String} {ascending : Bool} :
    readOrder text = .ok ascending ↔ Spells (orderWord ascending) text := by
  have hasc : Text.asciiLower text = "asc" ↔ Spells "asc" text := asciiLower_eq_iff (by simp) text
  have hdesc : Text.asciiLower text = "desc" ↔ Spells "desc" text := asciiLower_eq_iff (by simp) text
  cases ascending with
  | true =>
    rw [show orderWord true = "asc" from rfl, ← hasc, readOrder]
    grind
  | false =>
    rw [show orderWord false = "desc" from rfl, ← hdesc, readOrder]
    grind

/-! ### Entries -/

/-- The direction that a documented shape beside a name asks for. -/
inductive Directs : Json → Bool → Prop
  /-- The word itself. -/
  | word {text : String} {ascending : Bool} (hword : Spells (orderWord ascending) text) :
      Directs (.str text) ascending
  /-- Options with the word among them. -/
  | order {options : List (String × Json)} {text : String} {ascending : Bool}
      (horder : options.lookup "order" = some (.str text))
      (hword : Spells (orderWord ascending) text) : Directs (.obj options) ascending
  /-- Options that leave the word out. -/
  | silent {options : List (String × Json)} (horder : options.lookup "order" = none) :
      Directs (.obj options) true

/-- Whether options hold a direction that is no string. -/
def PassesOver (spec : Json) : Prop :=
  ∃ options direction, spec = .obj options ∧ options.lookup "order" = some direction ∧
    direction.string? = none

/-- The clause that an entry of a documented shape asks for. -/
inductive Asks : Json → SortClause → Prop
  /-- A name alone sorts up. -/
  | name (field : String) : Asks (.str field) ⟨field, true⟩
  /-- A name with a direction beside it. -/
  | directed (field : String) {spec : Json} {ascending : Bool} (hspec : Directs spec ascending) :
      Asks (.obj [(field, spec)]) ⟨field, ascending⟩

/-- The clause of an entry whose direction is passed over. -/
inductive AsksLoosely : Json → SortClause → Prop
  | directed (field : String) {spec : Json} (hspec : PassesOver spec) :
      AsksLoosely (.obj [(field, spec)]) ⟨field, true⟩

/-- Whether a clause is for the score or for a field that can be addressed. -/
def IsNamed (c : SortClause) : Prop := c.field = "_score" ∨ Field.checkName c.field = .ok ()

section

variable {field text : String} {options : List (String × Json)} {ascending : Bool}
  {r : Option SortClause}

@[simp] theorem directs_str : Directs (.str text) ascending ↔ Spells (orderWord ascending) text :=
  ⟨fun | .word hword => hword, .word⟩

theorem directs_obj_of_none (h : options.lookup "order" = none) :
    Directs (.obj options) ascending ↔ ascending = true := by
  constructor
  · rintro (_ | ⟨horder, -⟩ | -)
    · cases h.symm.trans horder
    · rfl
  · rintro rfl
    exact .silent h

theorem directs_obj_of_some {direction : Json} (h : options.lookup "order" = some direction) :
    Directs (.obj options) ascending ↔ Directs direction ascending ∧ direction.string? ≠ none := by
  constructor
  · rintro (_ | ⟨horder, hword⟩ | horder)
    · cases h.symm.trans horder
      exact ⟨.word hword, nofun⟩
    · cases h.symm.trans horder
  · rintro ⟨hdirection, hstring⟩
    cases direction with
    | str text => exact .order h (directs_str.mp hdirection)
    | _ => exact absurd rfl hstring

theorem passesOver_obj : PassesOver (.obj options) ↔
    ∃ direction, options.lookup "order" = some direction ∧ direction.string? = none := by
  simp [PassesOver]

/-- Without a word a field sorts up; that scores sort down shows nowhere. -/
theorem orderOf_unsaid (h : (options.lookup "order").bind Json.string? = none) :
    (orderOf field (.obj options) >>= readOrder >>= forField field) = forField field true := by
  rw [orderOf, h]
  by_cases hscore : field = "_score"
  · subst hscore
    rfl
  · rw [if_neg hscore]
    rfl

theorem forField_eq_ok : forField field ascending = .ok r ↔ IsNamed ⟨field, ascending⟩ ∧
    r = if field = "_score" then none else some ⟨field, ascending⟩ := by
  rw [forField, IsNamed]
  by_cases hscore : field = "_score"
  · simp [hscore, eq_comm]
  · cases hname : Field.checkName field <;> simp [hscore, eq_comm]

/-- What stands beside a name, as it is read. -/
theorem orderOf_eq_ok {spec : Json} :
    (orderOf field spec >>= readOrder >>= forField field) = .ok r ↔
      ∃ ascending, (Directs spec ascending ∨ PassesOver spec ∧ ascending = true) ∧
        forField field ascending = .ok r := by
  cases spec with
  | str text => simp [orderOf, readOrder_eq_ok, PassesOver]
  | obj options =>
    cases horder : options.lookup "order" with
    | none =>
      rw [orderOf_unsaid (by rw [horder]; rfl)]
      simp [directs_obj_of_none horder, passesOver_obj, horder]
    | some direction =>
      cases hstring : direction.string? with
      | none =>
        rw [orderOf_unsaid (by rw [horder, Option.bind_some, hstring])]
        simp [directs_obj_of_some horder, passesOver_obj, horder, hstring]
      | some text =>
        have hdirection : direction = .str text := by cases direction <;> cases hstring; rfl
        subst hdirection
        simp [orderOf, readOrder_eq_ok, directs_obj_of_some horder, passesOver_obj, horder,
          Json.string?]
  | null | bool | num | arr =>
    constructor
    · exact nofun
    · rintro ⟨_, ⟨⟨⟩⟩ | ⟨⟨_, _, ⟨⟩, _⟩, _⟩, _⟩

end

/-- **The entries that are read.** -/
theorem ofEntry_eq_ok {e : Json} {r : Option SortClause} :
    ofEntry e = .ok r ↔ ∃ c, (Asks e c ∨ AsksLoosely e c) ∧ IsNamed c ∧
      r = if c.field = "_score" then none else some c := by
  have hbeside : ∀ field spec, ofEntry (.obj [(field, spec)]) =
      (orderOf field spec >>= readOrder >>= forField field) := fun field spec =>
    (bind_assoc (orderOf field spec) readOrder (forField field)).symm
  constructor
  · intro h
    match e with
    | .str field =>
      obtain ⟨hnamed, hr⟩ := forField_eq_ok.mp h
      exact ⟨_, .inl (.name field), hnamed, hr⟩
    | .obj [(field, spec)] =>
      rw [hbeside, orderOf_eq_ok] at h
      obtain ⟨ascending, hspec, hr⟩ := h
      obtain ⟨hnamed, hr⟩ := forField_eq_ok.mp hr
      refine ⟨⟨field, ascending⟩, ?_, hnamed, hr⟩
      rcases hspec with hspec | ⟨hspec, rfl⟩
      · exact .inl (.directed field hspec)
      · exact .inr (.directed field hspec)
    | .null | .bool _ | .num _ | .arr _ | .obj [] | .obj (_ :: _ :: _) => simp [ofEntry] at h
  · rintro ⟨c, (⟨field⟩ | ⟨field, hspec⟩) | ⟨field, hspec⟩, hnamed, hr⟩
    · exact forField_eq_ok.mpr ⟨hnamed, hr⟩
    · rw [hbeside, orderOf_eq_ok]
      exact ⟨_, .inl hspec, forField_eq_ok.mpr ⟨hnamed, hr⟩⟩
    · rw [hbeside, orderOf_eq_ok]
      exact ⟨_, .inr ⟨hspec, rfl⟩, forField_eq_ok.mpr ⟨hnamed, hr⟩⟩

/-! ### Sorts -/

section

variable {e : Json} {es : List Json} {clauses : List SortClause}

theorem ofJson_arr_entries (strict : Bool) (sort : Json) :
    ofJson strict (.arr (entries sort)) = ofJson strict sort := rfl

theorem ofJson_arr_cons {r : Option SortClause} (he : ofEntry e = .ok r) :
    ofJson true (.arr (e :: es)) = (ofJson true (.arr es)).map (r.toList ++ ·) := by
  change ((e :: es).mapM ofEntry).map (·.filterMap id) = ((es.mapM ofEntry).map (·.filterMap id)).map _
  rw [List.mapM_cons, he]
  cases es.mapM ofEntry with
  | error x => rfl
  | ok rs => cases r <;> rfl

theorem ofJson_arr_cons_eq_ok : ofJson true (.arr (e :: es)) = .ok clauses ↔
    ∃ r rest, ofEntry e = .ok r ∧ ofJson true (.arr es) = .ok rest ∧ clauses = r.toList ++ rest := by
  cases he : ofEntry e with
  | error x =>
    have hrefused : ofJson true (.arr (e :: es)) = .error x := by
      change ((e :: es).mapM ofEntry).map _ = _
      rw [List.mapM_cons, he]
      rfl
    simp [hrefused]
  | ok r => simp [ofJson_arr_cons he, eq_comm (a := clauses)]

/-- **The clauses of a strict reading.**  Every entry asks for a clause, and those for the score
are left out. -/
theorem ofJson_strict_eq_ok : ofJson true (.arr es) = .ok clauses ↔
    ∃ asked, List.Forall₂ (fun e c => Asks e c ∨ AsksLoosely e c) es asked ∧
      (∀ c ∈ asked, IsNamed c) ∧ clauses = asked.filter (·.field ≠ "_score") := by
  induction es generalizing clauses with
  | nil =>
    have hnone : ofJson true (.arr []) = .ok [] := rfl
    simp [hnone, eq_comm]
  | cons e es ih =>
    have hhead : ∀ c : SortClause, ∀ cs : List SortClause,
        (if c.field = "_score" then none else some c).toList ++ cs.filter (·.field ≠ "_score") =
          (c :: cs).filter (·.field ≠ "_score") := by
      intro c cs
      by_cases hscore : c.field = "_score" <;> simp [hscore]
    rw [ofJson_arr_cons_eq_ok]
    constructor
    · rintro ⟨r, rest, he, hrest, rfl⟩
      obtain ⟨c, hc, hnamed, rfl⟩ := ofEntry_eq_ok.mp he
      obtain ⟨asked, hasked, hall, rfl⟩ := ih.mp hrest
      exact ⟨c :: asked, .cons hc hasked, List.forall_mem_cons.mpr ⟨hnamed, hall⟩, hhead c asked⟩
    · rintro ⟨_, heach, hall, rfl⟩
      obtain ⟨c, asked, hc, hasked, rfl⟩ := List.forall₂_cons_left_iff.mp heach
      obtain ⟨hnamed, hall⟩ := List.forall_mem_cons.mp hall
      exact ⟨_, _, ofEntry_eq_ok.mpr ⟨c, hc, hnamed, rfl⟩, ih.mpr ⟨asked, hasked, hall, rfl⟩,
        (hhead c asked).symm⟩

/-- A strict reading succeeds exactly if every entry asks for a clause. -/
theorem ofJson_strict_isOk_iff : (∃ clauses, ofJson true (.arr es) = .ok clauses) ↔
    ∀ e ∈ es, ∃ c, (Asks e c ∨ AsksLoosely e c) ∧ IsNamed c := by
  induction es with
  | nil => exact iff_of_true ⟨[], rfl⟩ nofun
  | cons e es ih =>
    rw [List.forall_mem_cons, ← ih]
    simp only [ofJson_arr_cons_eq_ok, ofEntry_eq_ok]
    constructor
    · rintro ⟨_, r, rest, ⟨c, hc, hnamed, -⟩, hrest, -⟩
      exact ⟨⟨c, hc, hnamed⟩, rest, hrest⟩
    · rintro ⟨⟨c, hc, hnamed⟩, rest, hrest⟩
      exact ⟨_, _, rest, ⟨c, hc, hnamed, rfl⟩, hrest, rfl⟩

/-- What a lenient reading skips, no strict one takes. -/
theorem isOk_alone : (ofJson true (.arr [e])).isOk = (ofEntry e).isOk := by
  change ([e].mapM ofEntry |>.map (·.filterMap id)).isOk = _
  rw [List.mapM_cons, List.mapM_nil]
  cases ofEntry e <;> rfl

/-- **A lenient reading** is a strict one of the entries that can be read alone. -/
theorem ofJson_lenient : ofJson false (.arr es) =
    ofJson true (.arr (es.filter fun e => (ofJson true (.arr [e])).isOk)) := by
  induction es with
  | nil => rfl
  | cons e es ih =>
    have hskip : ofJson false (.arr (e :: es)) =
        (ofJson false (.arr es)).map ((ofEntry e).toOption.join.toList ++ ·) := by
      change Except.ok ((e :: es).filterMap _) = Except.ok (_ ++ es.filterMap _)
      rw [List.filterMap_cons]
      cases (ofEntry e).toOption.join <;> rfl
    rw [hskip, ih, List.filter_cons, isOk_alone]
    cases he : ofEntry e with
    | error x =>
      change Except.map ([] ++ ·) _ = ofJson true (.arr (es.filter _))
      cases ofJson true (.arr (es.filter _)) <;> rfl
    | ok r => exact (ofJson_arr_cons he).symm

theorem ofJson_lenient_of_strict (h : ofJson true (.arr es) = .ok clauses) :
    ofJson false (.arr es) = .ok clauses := by
  have hread := ofJson_strict_isOk_iff.mp ⟨clauses, h⟩
  rw [ofJson_lenient, List.filter_eq_self.mpr, h]
  intro e he
  obtain ⟨c, hc, hnamed⟩ := hread e he
  rw [isOk_alone, ofEntry_eq_ok.mpr ⟨c, hc, hnamed, rfl⟩]
  rfl

end

/-- **What a sort is read as.**  A strict reading succeeds exactly if every entry has a
documented shape or passes over its direction, with a name that can be addressed or the score's;
it gives the clauses they ask for, in order and without the score's.  A lenient reading gives
the same, and always gives what a strict one of the entries that can be read alone gives. -/
theorem ofJson_by_shapes (sort : Json) :
    ((∃ clauses, ofJson true sort = .ok clauses) ↔
      ∀ e ∈ entries sort, ∃ c, (Asks e c ∨ AsksLoosely e c) ∧
        (c.field = "_score" ∨ Field.checkName c.field = .ok ())) ∧
    (∀ clauses, ofJson true sort = .ok clauses →
      (∃ asked, List.Forall₂ (fun e c => Asks e c ∨ AsksLoosely e c) (entries sort) asked ∧
        clauses = asked.filter (·.field ≠ "_score")) ∧
      ofJson false sort = .ok clauses) ∧
    ∃ clauses, ofJson false sort = .ok clauses ∧
      ofJson true (.arr ((entries sort).filter fun e => (ofJson true (.arr [e])).isOk)) =
        .ok clauses := by
  rw [← ofJson_arr_entries true sort, ← ofJson_arr_entries false sort]
  refine ⟨ofJson_strict_isOk_iff, fun clauses h => ⟨?_, ofJson_lenient_of_strict h⟩, ?_⟩
  · obtain ⟨asked, hasked, -, hclauses⟩ := ofJson_strict_eq_ok.mp h
    exact ⟨asked, hasked, hclauses⟩
  · exact ⟨_, rfl, ofJson_lenient.symm⟩

/-- A direction that is a number is refused beside the name and passed over among the options. -/
theorem strict_passes_over_order :
    ofJson true (.obj [("a", .obj [("order", .ofInt 5)])]) = .ok [⟨"a", true⟩] ∧
    (∀ c, ¬ Asks (.obj [("a", .obj [("order", .ofInt 5)])]) c) ∧
    ofJson true (.obj [("a", .ofInt 5)]) = .error (.unsupportedSpec "a" (.ofInt 5)) := by
  refine ⟨by rfl, ?_, by rfl⟩
  rintro c (_ | ⟨field, hspec⟩)
  have horder : [("order", Json.ofInt 5)].lookup "order" = some (.ofInt 5) := rfl
  rw [directs_obj_of_some horder] at hspec
  exact hspec.2 rfl

end DocSearch.SortClause
