import DocSearch.Proofs.Sql.Placeholder
import DocSearch.Sql.Condition

/-!
# Conditions bind what they mention

The expressions for fields are plain, whatever the names of the fields are: a name enters
a statement inside a literal only.  So the placeholders of a test are those that it writes
itself, one for each of its values, and a condition has the placeholders of its tests.

## Main results

* `plain_fieldValue`, `plain_fieldText`, `plain_bucketKey` — expressions are plain.
* `Test.isSlotted_render`, `Condition.isSlotted_render` — one placeholder for each value.
-/

namespace DocSearch

open Sql

/-! ### Expressions -/

section Expressions

variable (d : Dialect) {expr : String}

theorem plain_member (field : String) : Plain (d.member field) := by
  have hliteral := plain_quoteLiteral
  cases d with
  | sqlite => exact (hliteral _).preceded (by decide)
  | postgres =>
    rw [Dialect.member]
    split
    · exact (hliteral _).preceded (by decide)
    · exact (hliteral _).preceded (by decide)

theorem plain_memberText (field : String) : Plain (d.memberText field) := by
  cases d with
  | sqlite => exact (plain_quoteLiteral _).enclosed (by decide) (by decide)
  | postgres => exact plain_member .postgres field

theorem plain_column {field column : String} (h : Dialect.column? field = some column) :
    Plain column := by
  unfold Dialect.column? at h
  by_cases hid : field = "_id"
  · rw [if_pos hid] at h
    cases h
    exact plain_ofList (by decide)
  · rw [if_neg hid] at h
    by_cases htype : field = "_type"
    · rw [if_pos htype] at h
      cases h
      exact plain_ofList (by decide)
    · rw [if_neg htype] at h
      cases h

/-- **The expression for a field is plain**, whatever its name is. -/
theorem plain_fieldValue (field : String) : Plain (d.fieldValue field) := by
  unfold Dialect.fieldValue
  cases h : Dialect.column? field with
  | none => exact plain_member d field
  | some column => exact plain_column h

theorem plain_fieldText (field : String) : Plain (d.fieldText field) := by
  unfold Dialect.fieldText
  cases h : Dialect.column? field with
  | none => exact plain_memberText d field
  | some column => exact plain_column h

theorem plain_numeric (hexpr : Plain expr) : Plain (d.numeric expr) := by
  cases d with
  | sqlite => exact hexpr.enclosed (by decide) (by decide)
  | postgres => exact hexpr.enclosed (by decide) (by decide)

/-- **A bucket key is plain**: its literals are the units of the calendar. -/
theorem plain_bucketKey (hexpr : Plain expr) (source : TimestampSource) (interval : Interval) :
    Plain (d.bucketKey expr source interval) := by
  have hunit : Bare interval.unit := by
    cases interval <;> exact bare_ofList (by decide)
  cases d with
  | sqlite =>
    refine ((hunit.between (by decide)).append ?_).followed (by decide)
    cases source with
    | formatted => exact hexpr.enclosed (by decide) (by decide)
    | epochMillis => exact hexpr.enclosed (by decide) (by decide)
  | postgres =>
    refine ((hunit.between (by decide)).append ?_).followed (by decide)
    cases source with
    | formatted => exact hexpr.enclosed (by decide) (by decide)
    | epochMillis => exact hexpr.enclosed (by decide) (by decide)

end Expressions

/-! ### Fragments -/

namespace Sql.Fragment

variable {f g : Fragment} {s : String}

theorem isSlotted_raw (hs : Plain s) : (raw s).IsSlotted := .plain hs

theorem isSlotted_empty : empty.IsSlotted := isSlotted_raw (plain_ofList (by decide))

theorem isSlotted_raw_append (hs : Plain s) (hf : f.IsSlotted) : (raw s ++ f).IsSlotted :=
  Slotted.plain_append hs hf

/-- The second fragment starts with no digit. -/
theorem IsSlotted.append (hf : f.IsSlotted) (hg : g.IsSlotted) (hsep : Separate g.sql) :
    (f ++ g).IsSlotted := by
  rw [IsSlotted, params_append, List.length_append]
  exact Slotted.append hf hg hsep

theorem IsSlotted.append_raw (hf : f.IsSlotted) (hs : Plain s) (hsep : Separate s) :
    (f ++ raw s).IsSlotted :=
  hf.append (isSlotted_raw hs) hsep

theorem IsSlotted.preceded {before : List Char} (hf : f.IsSlotted)
    (hbefore : scansPlain false before = true) : (raw (String.ofList before) ++ f).IsSlotted :=
  isSlotted_raw_append (plain_ofList hbefore) hf

theorem IsSlotted.followed {after : List Char} (hf : f.IsSlotted)
    (hafter : scansPlain false after = true) (hsep : startsApart after = true) :
    (f ++ raw (String.ofList after)).IsSlotted :=
  hf.append_raw (plain_ofList hafter) (separate_ofList hsep)

theorem IsSlotted.parenthesized (hf : f.IsSlotted) : f.parenthesized.IsSlotted :=
  Slotted.enclosed hf (by decide) (by decide) (by decide)

theorem IsSlotted.negated (hf : f.IsSlotted) : f.negated.IsSlotted :=
  Slotted.enclosed hf (by decide) (by decide) (by decide)

theorem isSlotted_chain {sep : List Char} (hsep : scansPlain false sep = true)
    (hhead : startsApart sep = true) (hne : String.ofList sep ≠ "")
    {parts : List Fragment} (hparts : ∀ f ∈ parts, f.IsSlotted) :
    (chain (String.ofList sep) parts).IsSlotted := by
  induction parts with
  | nil => exact isSlotted_empty
  | cons f rest ih =>
    have hf := hparts f List.mem_cons_self
    cases rest with
    | nil => exact hf
    | cons g rest =>
      have hrest := ih fun f hf => hparts f (List.mem_cons_of_mem _ hf)
      rw [chain, IsSlotted, params_append, List.length_append]
      exact Slotted.append_append hf (plain_ofList hsep) (separate_ofList hhead) hne hrest

/-- Fragments without text have no placeholders, so nothing is lost when they are left
out. -/
theorem isSlotted_join {sep : List Char} (hsep : scansPlain false sep = true)
    (hhead : startsApart sep = true) (hne : String.ofList sep ≠ "")
    {parts : List Fragment} (hparts : ∀ f ∈ parts, f.IsSlotted) :
    (join (String.ofList sep) parts).IsSlotted :=
  isSlotted_chain hsep hhead hne fun f hf => hparts f (List.mem_filter.mp hf).1

end Sql.Fragment

/-! ### Conditions -/

open Sql.Fragment

/-- **A test has a placeholder for each of its values.** -/
theorem Test.isSlotted_render (d : Dialect) (t : Test) : (t.render d).IsSlotted := by
  have hop : ∀ op : RangeOp, Plain op.sql := fun op => by
    cases op <;> exact plain_ofList (by decide)
  have hcompare : ∀ {expr : String}, Plain expr → ∀ (op : RangeOp) (value : Value),
      Fragment.IsSlotted ⟨expr ++ " " ++ op.sql ++ " ?", [value]⟩ := by
    intro expr hexpr op value
    refine Slotted.plain_append ((hexpr.followed (by decide)).append (hop op)) ?_
    exact .single [' '] [] (by decide) (by decide) (by decide)
  cases t with
  | equals field value =>
    refine Slotted.plain_append (plain_fieldText d field) ?_
    exact .single [' ', '=', ' '] [] (by decide) (by decide) (by decide)
  | among field values =>
    have hopen : Plain (d.fieldText field ++ " IN (") :=
      (plain_fieldText d field).followed (by decide)
    refine Slotted.followed ?_ (by decide) (by decide)
    exact Slotted.plain_append hopen (slotted_placeholders values.length)
  | like field pattern =>
    refine Slotted.plain_append (plain_fieldText d field) ?_
    exact .single " LIKE ".toList " ESCAPE '\\'".toList (by decide) (by decide) (by decide)
  | compareText field op value => exact hcompare (plain_fieldText d field) op value
  | compareNumber field op value =>
    exact hcompare (plain_numeric d (plain_fieldValue d field)) op value
  | present field => exact isSlotted_raw ((plain_fieldValue d field).followed (by decide))

mutual

/-- **A condition has a placeholder for each of its values**, in their order. -/
theorem Condition.isSlotted_render (d : Dialect) : ∀ c : Condition, (c.render d).IsSlotted
  | .test t => by
    rw [Condition.render]
    exact t.isSlotted_render d
  | .never => by
    rw [Condition.render]
    exact isSlotted_raw (plain_ofList (by decide))
  | .all parts => by
    rw [Condition.render]
    exact isSlotted_join (by decide) (by decide) (by decide) (isSlotted_renderList d parts)
  | .any parts => by
    rw [Condition.render]
    exact isSlotted_join (by decide) (by decide) (by decide) (isSlotted_renderList d parts)
  | .group c => by
    rw [Condition.render]
    exact (c.isSlotted_render d).parenthesized
  | .not c => by
    rw [Condition.render]
    exact (c.isSlotted_render d).negated

theorem Condition.isSlotted_renderList (d : Dialect) : ∀ cs : List Condition,
    ∀ f ∈ Condition.renderList d cs, f.IsSlotted
  | [] => by
    intro f hf
    cases hf
  | c :: cs => by
    intro f hf
    rw [Condition.renderList] at hf
    rcases List.mem_cons.mp hf with rfl | hf
    · exact c.isSlotted_render d
    · exact isSlotted_renderList d cs f hf

end

theorem Condition.isSlotted_render? (d : Dialect) (c : Option Condition) :
    (Condition.render? d c).IsSlotted := by
  cases c with
  | none => exact isSlotted_empty
  | some c => exact c.isSlotted_render d

end DocSearch
