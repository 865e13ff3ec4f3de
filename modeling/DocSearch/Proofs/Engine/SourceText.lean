import DocSearch.Engine.Source
import DocSearch.Proofs.Json.Quoted

/-!
# The text of a source tells what is read

The text of the documents of some indices names each index and its table between quotes,
so it determines them, whatever the names are.  The types are among the bound values, and
the text of these determines them if the condition is known.

## Main results

* `enquote_append_inj` — a text starts with one quoted name at most.
* `documents_targets_eq` — sources of one text read the same indices.
* `documents_types_eq` — with the same values and the same condition, they read the same
  types.
-/

namespace DocSearch

open Sql

/-! ### Quoted names -/

/-- Between quotes the quote is written twice, so the first single one is the end. -/
theorem doubled_append_inj {quote : Char} {s t x y : List Char} (hx : x.head? ≠ some quote)
    (hy : y.head? ≠ some quote) (h : doubled quote s ++ quote :: x = doubled quote t ++ quote :: y) :
    s = t ∧ x = y := by
  induction s generalizing t with
  | nil =>
    cases t with
    | nil => exact ⟨rfl, (List.cons.inj h).2⟩
    | cons d t =>
      by_cases hd : d = quote
      · rw [hd, doubled_cons_self] at h
        have hstart : x = quote :: (doubled quote t ++ quote :: y) := (List.cons.inj h).2
        exact absurd (by rw [hstart]; rfl) hx
      · rw [doubled_cons_of_ne hd] at h
        exact absurd (List.cons.inj h).1.symm hd
  | cons c s ih =>
    cases t with
    | nil =>
      by_cases hc : c = quote
      · rw [hc, doubled_cons_self] at h
        have hstart : y = quote :: (doubled quote s ++ quote :: x) := (List.cons.inj h).2.symm
        exact absurd (by rw [hstart]; rfl) hy
      · rw [doubled_cons_of_ne hc] at h
        exact absurd (List.cons.inj h).1 hc
    | cons d t =>
      -- the first characters agree, and a quote is doubled on both sides or on neither
      have hpair : c = d ∧ doubled quote s ++ quote :: x = doubled quote t ++ quote :: y := by
        by_cases hc : c = quote <;> by_cases hd : d = quote
        · rw [hc, hd, doubled_cons_self, doubled_cons_self] at h
          exact ⟨hc.trans hd.symm, (List.cons.inj (List.cons.inj h).2).2⟩
        · rw [hc, doubled_cons_self, doubled_cons_of_ne hd] at h
          exact absurd (List.cons.inj h).1.symm hd
        · rw [hd, doubled_cons_self, doubled_cons_of_ne hc] at h
          exact absurd (List.cons.inj h).1 hc
        · rw [doubled_cons_of_ne hc, doubled_cons_of_ne hd] at h
          exact List.cons.inj h
      obtain ⟨rfl, hrest⟩ := hpair
      obtain ⟨rfl, hxy⟩ := ih hrest
      exact ⟨rfl, hxy⟩

/-- **A text starts with one quoted name at most**, unless more quotes follow. -/
theorem enquote_append_inj {quote : Char} {s t : String} {x y : List Char}
    (hx : x.head? ≠ some quote) (hy : y.head? ≠ some quote)
    (h : (enquote quote s).toList ++ x = (enquote quote t).toList ++ y) : s = t ∧ x = y := by
  have henquote : ∀ (s : String) (x : List Char),
      (enquote quote s).toList ++ x = quote :: (doubled quote s.toList ++ quote :: x) := by
    intro s x
    simp [enquote]
  rw [henquote, henquote, List.cons.injEq] at h
  obtain ⟨hnames, hrest⟩ := doubled_append_inj hx hy h.2
  exact ⟨String.toList_inj.mp hnames, hrest⟩

theorem quoteIdent_injective {s t : String} (h : quoteIdent s = quoteIdent t) : s = t := by
  have hlists : (quoteIdent s).toList ++ [] = (quoteIdent t).toList ++ [] := by rw [h]
  exact (enquote_append_inj (by simp) (by simp) hlists).1

/-! ### Indices -/

theorem targetRows_append_inj {t u : Target} {x y : List Char} (hx : x.head? ≠ some '"')
    (hy : y.head? ≠ some '"') (h : (targetRows t).toList ++ x = (targetRows u).toList ++ y) :
    t = u ∧ x = y := by
  simp only [targetRows, String.toList_append, List.append_assoc] at h
  have h := List.append_cancel_left h
  obtain ⟨hindex, hrest⟩ := enquote_append_inj (by simp) (by simp) h
  obtain ⟨htable, hxy⟩ := enquote_append_inj hx hy (List.append_cancel_left hrest)
  refine ⟨?_, hxy⟩
  cases t
  cases u
  exact congr (congrArg Target.mk hindex) htable

/-- What follows the rows of the last index. -/
def afterRows (x : List Char) : List Char := ") AS src".toList ++ x

theorem head?_afterRows (x : List Char) : (afterRows x).head? = some ')' := rfl

theorem head?_union (x : List Char) : (" UNION ALL ".toList ++ x).head? = some ' ' := rfl

/-- The rows of several indices are read one after the other; what follows them is no
further index. -/
theorem joinedRows_append_inj {targets targets' : List Target} (h : targets ≠ [])
    (h' : targets' ≠ []) {x y : List Char}
    (hrows : (Text.joinWith " UNION ALL " (targets.map targetRows)).toList ++ afterRows x =
      (Text.joinWith " UNION ALL " (targets'.map targetRows)).toList ++ afterRows y) :
    targets = targets' := by
  induction targets generalizing targets' with
  | nil => exact absurd rfl h
  | cons t targets ih =>
    cases targets' with
    | nil => exact absurd rfl h'
    | cons u targets' =>
      have hafter : ∀ z : List Char, (afterRows z).head? ≠ some '"' := fun z => by
        rw [head?_afterRows]
        decide
      have hunion : ∀ z : List Char, (" UNION ALL ".toList ++ z).head? ≠ some '"' := fun z => by
        rw [head?_union]
        decide
      cases targets with
      | nil =>
        cases targets' with
        | nil =>
          simp only [List.map_cons, List.map_nil, Text.joinWith_singleton] at hrows
          rw [(targetRows_append_inj (hafter x) (hafter y) hrows).1]
        | cons u' targets' =>
          -- a bracket is no union
          simp only [List.map_cons, List.map_nil, Text.joinWith_singleton, Text.joinWith_cons_cons,
            String.toList_append, List.append_assoc] at hrows
          obtain ⟨-, hrest⟩ := targetRows_append_inj (hafter x) (hunion _) hrows
          have hhead := congrArg List.head? hrest
          rw [head?_afterRows, head?_union] at hhead
          cases hhead
      | cons t' targets =>
        cases targets' with
        | nil =>
          simp only [List.map_cons, List.map_nil, Text.joinWith_singleton, Text.joinWith_cons_cons,
            String.toList_append, List.append_assoc] at hrows
          obtain ⟨-, hrest⟩ := targetRows_append_inj (hunion _) (hafter y) hrows
          have hhead := congrArg List.head? hrest
          rw [head?_afterRows, head?_union] at hhead
          cases hhead
        | cons u' targets' =>
          simp only [List.map_cons, Text.joinWith_cons_cons, String.toList_append,
            List.append_assoc] at hrows
          obtain ⟨htu, hrest⟩ := targetRows_append_inj (hunion _) (hunion _) hrows
          rw [htu, ih (List.cons_ne_nil _ _) (List.cons_ne_nil _ _) (List.append_cancel_left hrest)]

/-- **Sources of one text read the same indices.** -/
theorem documents_targets_eq {targets targets' : List Target} (h : targets ≠ [])
    (h' : targets' ≠ []) {types types' : List String} {filter filter' : Fragment}
    (hsql : (documentsFragment targets types filter).sql =
      (documentsFragment targets' types' filter').sql) : targets = targets' := by
  have htext : ∀ (targets : List Target) (types : List String) (filter : Fragment), targets ≠ [] →
      ∃ x, (documentsFragment targets types filter).sql.toList =
        "(SELECT sift_index, id, type, doc FROM (".toList ++
          ((Text.joinWith " UNION ALL " (targets.map targetRows)).toList ++ afterRows x) := by
    intro targets types filter hne
    rw [documentsFragment, if_neg (by simpa using hne)]
    simp only [Fragment.sql_append, Fragment.raw, String.toList_append, List.append_assoc]
    exact ⟨_, rfl⟩
  obtain ⟨x, hx⟩ := htext targets types filter h
  obtain ⟨y, hy⟩ := htext targets' types' filter' h'
  have hlists := congrArg String.toList hsql
  rw [hx, hy] at hlists
  exact joinedRows_append_inj h h' (List.append_cancel_left hlists)

/-! ### Types -/

theorem printItems_cons (v : Json) (items : List Json) :
    (Json.printItems (v :: items)).toList =
      v.print.toList ++ if items = [] then [] else ',' :: (Json.printItems items).toList := by
  cases items with
  | nil => simp [Json.printItems]
  | cons w items => simp [Json.printItems]

theorem length_printItems_le (items rest : List Json) :
    (Json.printItems rest).toList.length ≤ (Json.printItems (items ++ rest)).toList.length := by
  induction items with
  | nil => exact Nat.le_refl _
  | cons v items ih =>
    rw [List.cons_append, printItems_cons]
    split
    case isTrue hnil =>
      rw [hnil] at ih
      have hzero : (Json.printItems []).toList.length = 0 := rfl
      omega
    case isFalse => simp only [List.length_append, List.length_cons]; omega

/-- Strings at the start of a list of items are determined by its text, if the other items
are known. -/
theorem strings_eq_of_printItems_eq {types types' : List String} {rest : List Json}
    (h : (Json.printItems (types.map .str ++ rest)).toList =
      (Json.printItems (types'.map .str ++ rest)).toList) : types = types' := by
  -- a string more makes the text longer
  have hlonger : ∀ (type : String) (types : List String),
      (Json.printItems rest).toList.length <
        (Json.printItems ((type :: types).map .str ++ rest)).toList.length := by
    intro type types
    have hle := length_printItems_le (types.map .str) rest
    have hquotes : 0 < (Json.str type).print.toList.length := by simp [Json.print, Json.quoted]
    rw [List.map_cons, List.cons_append, printItems_cons]
    split
    case isTrue hnil =>
      rw [hnil] at hle
      have hzero : (Json.printItems []).toList.length = 0 := rfl
      simp only [List.length_append, List.length_nil]
      omega
    case isFalse => simp only [List.length_append, List.length_cons]; omega
  induction types generalizing types' with
  | nil =>
    cases types' with
    | nil => rfl
    | cons type types' => exact absurd (congrArg List.length h) (Nat.ne_of_lt (hlonger type types'))
  | cons type types ih =>
    cases types' with
    | nil => exact absurd (congrArg List.length h) (Nat.ne_of_gt (hlonger type types))
    | cons type' types' =>
      rw [List.map_cons, List.map_cons, List.cons_append, List.cons_append, printItems_cons,
        printItems_cons] at h
      obtain ⟨rfl, hrest⟩ := Json.quoted_append_inj h
      congr 1
      by_cases hnil : types.map Json.str ++ rest = [] <;>
        by_cases hnil' : types'.map Json.str ++ rest = []
      · obtain ⟨htypes, -⟩ := List.append_eq_nil_iff.mp hnil
        obtain ⟨htypes', -⟩ := List.append_eq_nil_iff.mp hnil'
        rw [List.map_eq_nil_iff.mp htypes, List.map_eq_nil_iff.mp htypes']
      · rw [if_pos hnil, if_neg hnil'] at hrest
        cases hrest
      · rw [if_neg hnil, if_pos hnil'] at hrest
        cases hrest
      · rw [if_neg hnil, if_neg hnil'] at hrest
        exact ih (List.cons.inj hrest).2

/-- The values that a condition binds, unless it has no text. -/
def boundValues (filter : Fragment) : List Value := if filter.isEmpty then [] else filter.params

theorem documents_params {targets : List Target} (h : targets ≠ []) (types : List String)
    (filter : Fragment) :
    (documentsFragment targets types filter).params =
      types.map Value.text ++ boundValues filter := by
  have hrestriction : ∀ condition : Fragment, Fragment.params
      (if condition.isEmpty then condition else .raw " WHERE " ++ condition) = condition.params := by
    intro condition
    split <;> rfl
  have hjoin : (Fragment.join " AND " [typeFilter types, filter]).params =
      types.map Value.text ++ boundValues filter := by
    rw [Fragment.join, boundValues]
    cases types with
    | nil =>
      have hempty : (typeFilter []).isEmpty = true := rfl
      cases hfilter : filter.isEmpty <;> simp [hempty, hfilter, Fragment.chain, Fragment.empty]
    | cons type types =>
      have hempty : (typeFilter (type :: types)).isEmpty = false := by
        simp [typeFilter, Fragment.isEmpty]
      have hparams : (typeFilter (type :: types)).params = (type :: types).map Value.text := rfl
      cases hfilter : filter.isEmpty <;>
        simp [hempty, hfilter, hparams, Fragment.chain, Fragment.push]
  rw [documentsFragment, if_neg (by simpa using h)]
  have hraw : ∀ sql : String, (Fragment.raw sql).params = [] := fun _ => rfl
  simp only [Fragment.params_append, hrestriction, hjoin, hraw, List.nil_append, List.append_nil]

/-- **Sources with the same values and the same condition read the same types.** -/
theorem documents_types_eq {targets targets' : List Target} (h : targets ≠ []) (h' : targets' ≠ [])
    {types types' : List String} {filter : Fragment}
    (hparams : (Json.arr ((documentsFragment targets types filter).params.map Value.toJson)).print =
      (Json.arr ((documentsFragment targets' types' filter).params.map Value.toJson)).print) :
    types = types' := by
  have hlists := congrArg String.toList hparams
  simp only [Json.print, documents_params h, documents_params h', List.map_append,
    List.map_map, String.toList_append, List.append_assoc] at hlists
  exact strings_eq_of_printItems_eq (List.append_cancel_right (List.append_cancel_left hlists))

end DocSearch
