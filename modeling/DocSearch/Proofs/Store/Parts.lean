import DocSearch.Proofs.Steps
import DocSearch.Store.Found
import Mathlib.Data.List.Perm.Subperm
import Mathlib.Data.List.SplitBy

/-!
# What a search passes on

A search that is built from others passes on a part of what they find, in some order, whatever
fails in which of them: it looks at rows up to a failure, it puts one search behind another one
or merges the two, it brings all rows or those of a block into an order, and it keeps the least
of them.  So nothing is found twice unless it is looked for twice.

## Main results

* `Found.rows_filterMapM_sublist`, `Found.rows_append_sublist`, `Found.rows_merge_subperm`,
  `Found.rows_sorted_subperm`, `Found.rows_sortedInBlocks_subperm` — **what a search passes on**
  of the rows that it is given.
* `Found.least_subperm`, `Found.upTo_sublist` — what is kept of them.
-/

namespace DocSearch

open Steps

/-! ### Lists of which each has a part -/

theorem flatMap_subperm {α β : Type} {f g : α → List β} {as : List α}
    (h : ∀ a ∈ as, (f a).Subperm (g a)) : (as.flatMap f).Subperm (as.flatMap g) := by
  induction as with
  | nil => exact List.Subperm.refl _
  | cons a as ih =>
    obtain ⟨ha, has⟩ := List.forall_mem_cons.mp h
    exact ha.append (ih has)

/-- The images of a part of a list are a part of its images. -/
theorem map_subperm {α β : Type} {as bs : List α} (h : as.Subperm bs) (f : α → β) :
    (as.map f).Subperm (bs.map f) := by
  obtain ⟨cs, hperm, hsub⟩ := h
  exact ⟨cs.map f, hperm.map f, hsub.map f⟩

/-! ### Searches that pass on a part -/

namespace Found

variable {α β γ : Type} {x y : Found α}

/-- What a function gives for rows, up to the first failure. -/
theorem rows_filterMapM_sublist {f : α → Except EvaluationError (Option β)} {g : β → γ} {h : α → γ}
    (hf : ∀ a b, f a = .ok (some b) → g b = h a) (x : Found α) :
    ((x.filterMapM f).rows.map g).Sublist (x.rows.map h) := by
  obtain ⟨rows, failure⟩ := x
  induction rows with
  | nil => exact List.Sublist.refl _
  | cons a rows ih =>
    rw [filterMapM, ofRows]
    split
    case h_1 b hb =>
      rw [List.map_cons, ← hf a b hb]
      exact ih.cons_cons _
    case h_2 => exact ih.cons _
    case h_3 => exact List.nil_sublist _

theorem rows_mapM_sublist {f : α → Except EvaluationError β} {g : β → γ} {h : α → γ}
    (hf : ∀ a b, f a = .ok b → g b = h a) (x : Found α) :
    ((x.mapM f).rows.map g).Sublist (x.rows.map h) :=
  rows_filterMapM_sublist (fun a b hb => by
    obtain ⟨c, hc, heq⟩ := map_eq_ok.mp hb
    exact hf a b (Option.some.inj heq ▸ hc)) x

theorem rows_filterM_sublist (p : α → Except EvaluationError Bool) (x : Found α) :
    (x.filterM p).rows.Sublist x.rows := by
  have hrows := rows_filterMapM_sublist (g := id) (h := id)
    (f := fun a => (p a).map fun passes => if passes then some a else none) (fun a b hb => by
      obtain ⟨passes, -, hsome⟩ := map_eq_ok.mp hb
      cases passes with
      | false => cases hsome
      | true => exact (Option.some.inj hsome).symm) x
  rwa [List.map_id, List.map_id] at hrows

theorem rows_append_sublist (x y : Found α) : (x.append y).rows.Sublist (x.rows ++ y.rows) := by
  rw [append]
  split
  case h_1 => exact List.sublist_append_left _ _
  case h_2 => exact List.Sublist.refl _

theorem rows_concat_sublist (searches : List (Found α)) :
    (concat searches).rows.Sublist (searches.flatMap (·.rows)) := by
  induction searches with
  | nil => exact List.Sublist.refl _
  | cons x searches ih =>
    exact (rows_append_sublist x _).trans ((List.Sublist.refl _).append ih)

theorem rows_merge_subperm (le : α → α → Bool) (x y : Found α) :
    (x.merge le y).rows.Subperm (x.rows ++ y.rows) := by
  have hgo : ∀ as bs : List α, (merge.go le x y as bs).rows.Subperm (as ++ bs) := by
    intro as bs
    fun_induction merge.go le x y as bs with
    | case1 => exact List.nil_subperm
    | case2 => exact List.Subperm.refl _
    | case3 => exact List.nil_subperm
    | case4 a as h => rw [List.append_nil]
    | case5 a as b bs h ih => exact (List.subperm_cons a).mpr ih
    | case6 a as b bs h ih =>
      exact ((List.subperm_cons b).mpr ih).trans List.perm_middle.symm.subperm
  exact hgo x.rows y.rows

theorem rows_sorted_subperm (le : α → α → Bool) (x : Found α) :
    (x.sorted le).rows.Subperm x.rows := by
  rw [sorted]
  split
  case h_1 => exact List.nil_subperm
  case h_2 => exact (List.mergeSort_perm x.rows le).subperm

/-- Blocks that are sorted each by itself hold what they held before. -/
theorem flatMap_mergeSort_perm (le : α → α → Bool) (blocks : List (List α)) :
    (blocks.flatMap fun block => block.mergeSort le).Perm blocks.flatten := by
  rw [← List.flatMap_id]
  exact List.Perm.flatMap_left _ fun block _ => List.mergeSort_perm block le

theorem rows_sortedInBlocks_subperm (same le : α → α → Bool) (x : Found α) :
    (x.sortedInBlocks same le).rows.Subperm x.rows := by
  have hall : (x.rows.splitBy same).flatten = x.rows := List.flatten_splitBy same x.rows
  refine (flatMap_mergeSort_perm le _).subperm.trans (List.Sublist.subperm ?_)
  conv_rhs => rw [← hall]
  split
  case isTrue => exact (List.dropLast_sublist _).flatten
  case isFalse => exact List.Sublist.refl _

theorem insertSorted_perm (le : α → α → Bool) (a : α) (rows : List α) :
    (insertSorted le a rows).Perm (a :: rows) := by
  rw [insertSorted]
  refine List.perm_middle.trans (List.Perm.cons a ?_)
  rw [List.takeWhile_append_dropWhile]

theorem takeRun_subperm {le : α → α → Bool} {n : Nat} {failure : Option EvaluationError}
    {rows held after : List α} (h : takeRun le n failure held rows = .ok after) :
    after.Subperm (held ++ rows) := by
  induction rows generalizing held with
  | nil =>
    unfold takeRun at h
    cases failure with
    | some e => cases h
    | none =>
      cases h
      rw [List.append_nil]
  | cons a rows ih =>
    -- the row is taken in among those that are held, one of which may have to go
    have hinsert : ∀ kept : List α, kept.Sublist held →
        (insertSorted le a kept ++ rows).Subperm (held ++ a :: rows) := fun kept hkept =>
      (((insertSorted_perm le a kept).append_right rows).trans List.perm_middle.symm).subperm.trans
        (hkept.append (List.Sublist.refl _)).subperm
    rw [takeRun] at h
    split at h
    case isTrue => exact (ih h).trans (hinsert held (List.Sublist.refl _))
    case isFalse =>
      split at h
      case isTrue =>
        cases h
        exact (List.sublist_append_left _ _).subperm
      case isFalse => exact (ih h).trans (hinsert held.dropLast (List.dropLast_sublist _))

theorem least_subperm {le : α → α → Bool} {n : Nat} {runs : List (Found α)} {held : List α}
    (h : least le n runs = .ok held) : held.Subperm (runs.flatMap (·.rows)) := by
  have hfold : ∀ before : List α,
      runs.foldlM (fun held run => takeRun le n run.failure held run.rows) before = .ok held →
      held.Subperm (before ++ runs.flatMap (·.rows)) := by
    clear h
    induction runs with
    | nil =>
      intro before h
      cases h
      rw [List.flatMap_nil, List.append_nil]
    | cons run runs ih =>
      intro before h
      rw [List.foldlM_cons] at h
      obtain ⟨after, htake, h⟩ := bind_eq_ok.mp h
      rw [List.flatMap_cons, ← List.append_assoc]
      exact (ih after h).trans ((takeRun_subperm htake).append (List.Subperm.refl _))
  exact hfold [] h

theorem upTo_sublist {limit : Option Nat} {rows : List α} (h : x.upTo limit = .ok rows) :
    rows.Sublist x.rows := by
  have hall : ∀ rows, x.toExcept = .ok rows → rows.Sublist x.rows := by
    intro rows hrows
    rw [toExcept_eq_ok_iff] at hrows
    rw [hrows]
    exact List.Sublist.refl _
  cases limit with
  | none => exact hall rows h
  | some n =>
    rw [upTo, take] at h
    split at h
    case isTrue =>
      cases h
      exact List.take_sublist _ _
    case isFalse => exact hall rows h

end Found

end DocSearch
