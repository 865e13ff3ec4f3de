import DocSearch.Engine.Arena
import DocSearch.Engine.Statement
import DocSearch.Proofs.Sql.Binding

/-!
# Statements bind what they mention

The names of tables are bare: the name of an index becomes part of a name only if it
consists of letters, digits and a few signs, and the names of temporary tables end in
hexadecimal digits.  A statement over such tables has one placeholder for each value that
it binds, wherever its source is embedded.

## Main definitions

* `Source.IsBare`, `Selection.IsBare`, `Statement.IsBare` — all tables have bare names.

## Main results

* `bare_of_tableName`, `bare_tempTableName` — the names of tables are bare.
* `Source.isSlotted_render`, `Selection.isSlotted_render`, `Statement.isSlotted_render` —
  one placeholder for each value.
-/

namespace DocSearch

open Sql Fragment

/-! ### Names of tables -/

theorem isBare_of_isNameRest {c : Char} (hc : Index.isNameRest c = true) : isBare c = true := by
  have hnot : ∀ d : Char, Index.isNameRest d = false → c ≠ d := by
    rintro d hd rfl
    rw [hd] at hc
    cases hc
  unfold isBare
  rw [Bool.and_eq_true, Bool.and_eq_true, bne_iff_ne, bne_iff_ne, bne_iff_ne]
  exact ⟨⟨hnot _ (by decide), hnot _ (by decide)⟩, hnot _ (by decide)⟩

theorem bare_of_isValidName {name : String} (h : Index.isValidName name = true) : Bare name := by
  intro c hc
  unfold Index.isValidName at h
  cases hname : name.toList with
  | nil =>
    rw [hname] at hc
    cases hc
  | cons d ds =>
    rw [hname] at h hc
    rw [Bool.and_eq_true, Bool.and_eq_true, List.all_eq_true] at h
    obtain ⟨⟨hstart, hrest⟩, -⟩ := h
    apply isBare_of_isNameRest
    rcases List.mem_cons.mp hc with rfl | hc
    · unfold Index.isNameRest
      rw [hstart]
      rfl
    · exact hrest c hc

/-- **The table of an index has a bare name.** -/
theorem bare_of_tableName {index table : String} (h : Index.tableName index = .ok table) :
    Bare table := by
  unfold Index.tableName at h
  by_cases hvalid : Index.isValidName index = true
  · rw [if_pos hvalid] at h
    cases h
    have hprefix : Bare Index.tablePrefix := bare_ofList (by decide)
    exact hprefix.append (bare_of_isValidName hvalid)
  · rw [if_neg hvalid] at h
    cases h

theorem isBare_hexDigit {n : Nat} (hn : n < 16) : isBare (hexDigit n) = true := by
  have hall : ∀ k : Fin 16, isBare (hexDigit k) = true := by decide
  exact hall ⟨n, hn⟩

theorem bare_hex (bytes : List UInt8) : Bare (Digest.hex bytes) := by
  intro c hc
  rw [Digest.hex, String.toList_ofList, List.mem_flatMap] at hc
  obtain ⟨byte, -, hc⟩ := hc
  have hbyte := byte.toNat_lt
  rcases List.mem_cons.mp hc with rfl | hc
  · exact isBare_hexDigit (by omega)
  · rw [List.mem_singleton.mp hc]
    exact isBare_hexDigit (by omega)

/-- **A temporary table has a bare name**, whatever it holds. -/
theorem bare_tempTableName (parts : List String) : Bare (tempTableName parts) := by
  have hprefix : Bare tempTablePrefix := bare_ofList (by decide)
  exact hprefix.append (bare_hex _)

/-! ### Numbers -/

theorem bare_toString_nat (n : Nat) : Bare (toString n) := by
  intro c hc
  rw [Nat.toString_eq_ofList_toDigits, String.toList_ofList] at hc
  have hdigit : c.isDigit = true := Nat.isDigit_of_mem_toDigits (by decide) (by decide) hc
  apply isBare_of_isNameRest
  unfold Index.isNameRest Index.isNameStart
  rw [hdigit, Bool.or_true]
  rfl

theorem bare_toString_int (n : Int) : Bare (toString n) := by
  cases n with
  | ofNat n => exact bare_toString_nat n
  | negSucc n =>
    have hsign : Bare "-" := bare_ofList (by decide)
    exact hsign.append (bare_toString_nat (n + 1))

/-! ### Sources -/

/-- The tables of a source have bare names. -/
def Source.IsBare : Source → Prop
  | .table name => Bare name
  | .documents targets _ _ => ∀ t ∈ targets, Bare t.table

theorem isSlotted_typeFilter (types : List String) : (typeFilter types).IsSlotted := by
  unfold typeFilter
  split
  · exact isSlotted_empty
  · show Slotted _ (types.map Value.text).length
    rw [List.length_map]
    exact (slotted_placeholders types.length).enclosed (by decide) (by decide) (by decide)

theorem plain_targetRows {t : Target} (ht : Bare t.table) : Plain (targetRows t) := by
  have hindex := plain_quoteLiteral t.index
  exact (hindex.enclosed (by decide) (by decide)).append ht.quoteIdent.plain

theorem isSlotted_documentsFragment {targets : List Target} (htargets : ∀ t ∈ targets, Bare t.table)
    (types : List String) {filter : Fragment} (hfilter : filter.IsSlotted) :
    (documentsFragment targets types filter).IsSlotted := by
  have hunion : Plain (Text.joinWith " UNION ALL " (targets.map targetRows)) := by
    refine Plain.joinWith (plain_ofList (by decide)) fun s hs => ?_
    obtain ⟨t, ht, rfl⟩ := List.mem_map.mp hs
    exact plain_targetRows (htargets t ht)
  have hcondition : (Fragment.join " AND " [typeFilter types, filter]).IsSlotted := by
    refine isSlotted_join (by decide) (by decide) (by decide) fun f hf => ?_
    rcases List.mem_cons.mp hf with rfl | hf
    · exact isSlotted_typeFilter types
    · rw [List.mem_singleton.mp hf]
      exact hfilter
  unfold documentsFragment
  by_cases hempty : targets.isEmpty = true
  · rw [if_pos hempty]
    exact isSlotted_raw ((plain_ofList (by decide)).followed (by decide))
  · rw [if_neg hempty]
    refine IsSlotted.followed ?_ (by decide) (by decide)
    refine isSlotted_raw_append (hunion.enclosed (by decide) (by decide)) ?_
    split
    · exact hcondition
    · exact hcondition.preceded (by decide)

/-- **A source over bare tables has a placeholder for each of its values**, whatever the
types and the condition are. -/
theorem Source.isSlotted_render (d : Dialect) {source : Source} (h : source.IsBare) :
    (source.render d).IsSlotted := by
  cases source with
  | table name => exact isSlotted_raw (Bare.quoteIdent h).plain
  | documents targets types filter =>
    exact isSlotted_documentsFragment h types (Condition.isSlotted_render? d filter)

/-! ### Selections -/

/-- The tables of a selection have bare names. -/
def Selection.IsBare : Selection → Prop
  | .bucketed _ source => source.IsBare
  | .bucket table _ => Bare table
  | .verbatim sql => sql.IsSlotted

theorem plain_bucketKey_render (d : Dialect) (key : BucketKey) : Plain (key.render d) :=
  plain_bucketKey d (plain_fieldValue d key.field) key.source key.interval

theorem Selection.isSlotted_render (d : Dialect) {selection : Selection} (h : selection.IsBare) :
    (selection.render d).IsSlotted := by
  cases selection with
  | bucketed key source =>
    exact isSlotted_raw_append ((plain_bucketKey_render d key).enclosed (by decide) (by decide))
      (Source.isSlotted_render d h)
  | bucket table key =>
    refine Slotted.plain_append ((Bare.quoteIdent h).plain.preceded (by decide)) ?_
    exact .single " WHERE sift_bucket = ".toList [] (by decide) (by decide) (by decide)
  | verbatim sql => exact h

/-! ### Statements -/

namespace Statement

/-- The tables of a statement have bare names. -/
def IsBare : Statement → Prop
  | metric _ _ source | histogram _ source | count source | page source _ _ _ => source.IsBare
  | buckets table | drop table => Bare table
  | create table selection => Bare table ∧ selection.IsBare

variable (d : Dialect)

theorem plain_metricArgument (m : Metric) (field : String) : Plain (metricArgument d m field) := by
  have hvalue := plain_fieldValue d field
  cases m with
  | valueCount => exact hvalue
  | sum => exact plain_numeric d hvalue
  | min => exact plain_numeric d hvalue
  | max => exact plain_numeric d hvalue
  | avg => exact plain_numeric d hvalue

theorem plain_orderBy (sort : List SortClause) : Plain (SortClause.orderBy d sort) := by
  unfold SortClause.orderBy
  split
  · exact plain_ofList (by decide)
  · refine Plain.preceded (Plain.joinWith (plain_ofList (by decide)) fun s hs => ?_) (by decide)
    obtain ⟨c, -, rfl⟩ := List.mem_map.mp hs
    refine (plain_fieldValue d c.field).append ?_
    cases c.ascending <;> exact plain_ofList (by decide)

theorem plain_pageTail (sort : List SortClause) (size offset : Int64) :
    Plain (pageTail d sort size offset) := by
  have horder : Plain (if (SortClause.orderBy d sort).isEmpty then ""
      else " " ++ SortClause.orderBy d sort) := by
    split
    · exact plain_ofList (by decide)
    · exact (plain_orderBy d sort).preceded (by decide)
  have hsize := (bare_toString_int size.toInt).plain
  have hoffset := (bare_toString_int offset.toInt).plain
  exact (((horder.followed (by decide)).append hsize).followed (by decide)).append hoffset

/-- What follows the source of a page starts with a blank. -/
theorem separate_pageTail (sort : List SortClause) (size offset : Int64) :
    Separate (pageTail d sort size offset) := by
  unfold pageTail
  simp only
  split
  · rw [String.empty_append, String.append_assoc, String.append_assoc]
    exact Separate.append (separate_ofList (by decide)) (by decide)
  · rw [String.append_assoc, String.append_assoc, String.append_assoc, String.append_assoc]
    exact Separate.append (separate_ofList (by decide)) (by decide)

/-- **A statement over bare tables has a placeholder for each value that it binds.** -/
theorem isSlotted_render {s : Statement} (h : s.IsBare) : (s.render d).IsSlotted := by
  cases s with
  | metric m field source =>
    have hfunction : Bare m.sqlFunction := by cases m <;> exact bare_ofList (by decide)
    have hselect : Plain ("SELECT " ++ m.sqlFunction ++ "(") := hfunction.between (by decide)
    have hargument := plain_metricArgument d m field
    exact isSlotted_raw_append ((hselect.append hargument).followed (by decide))
      (Source.isSlotted_render d h)
  | histogram key source =>
    refine IsSlotted.followed ?_ (by decide) (by decide)
    exact isSlotted_raw_append ((plain_bucketKey_render d key).enclosed (by decide) (by decide))
      (Source.isSlotted_render d h)
  | buckets table =>
    exact isSlotted_raw ((Bare.quoteIdent h).plain.enclosed (by decide) (by decide))
  | count source => exact (Source.isSlotted_render d h).preceded (by decide)
  | page source sort size offset =>
    exact ((Source.isSlotted_render d h).preceded (by decide)).append_raw
      (plain_pageTail d sort size offset) (separate_pageTail d sort size offset)
  | drop table => exact isSlotted_raw ((Bare.quoteIdent h).plain.preceded (by decide))
  | create table selection =>
    obtain ⟨htable, hselection⟩ := h
    exact isSlotted_raw_append (htable.quoteIdent.plain.enclosed (by decide) (by decide))
      (Selection.isSlotted_render d hselection)

end Statement

end DocSearch
