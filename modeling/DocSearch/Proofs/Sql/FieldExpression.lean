import DocSearch.Proofs.Sql.Comments
import DocSearch.Proofs.Store.MemberPath

/-!
# Expressions of fields

The expression of a field is a column, or an operator between the column of the documents
and one literal; SQLite reads its text by a call around that.  Whatever the name holds stays
within the literal, so nothing of it is read as anything else.

Names that differ have expressions that differ.  A name is put together from the names on its
path, and each of these is found again: it goes on to the next quote if it starts with one,
and to the next character of another kind if not.

## Main definitions

* `Dialect.access` — the operator and the literal of a field.
* `Field.readSegment` — the name at the start of a path.

## Main results

* `Field.readSegment_append`, `Field.chained_inj` — a path is read back.
* `Dialect.access_inj` — **different fields are accessed differently.**
* `Dialect.field_expressions` — **what the expressions of a field are read as, and that no other
  field has them.**
-/

namespace DocSearch

open Sql

/-! ### Names on a path -/

/-- A text is put together from its pieces. -/
theorem Text.flatMap_splitWhere (sep : Char) (cs : List Char) :
    (splitWhere (· == sep) cs).flatMap (sep :: ·) = sep :: cs := by
  induction cs with
  | nil => rfl
  | cons c cs ih =>
    rw [splitWhere]
    split
    case isTrue hc => rw [List.flatMap_cons, ih, beq_iff_eq.mp hc, List.singleton_append]
    case isFalse =>
      cases hpieces : splitWhere (· == sep) cs with
      | nil => exact absurd hpieces (splitWhere_ne_nil _ cs)
      | cons piece pieces =>
        rw [hpieces, List.flatMap_cons, List.cons_append, List.cons.injEq] at ih
        rw [List.flatMap_cons, List.cons_append, List.cons_append, ih.2]

namespace Field

variable {s t field : String} {rest : List Char}

/-- The names on the path of a field tell its name. -/
theorem eq_of_segments_eq {f g : String} (h : segments f = segments g) : f = g := by
  have hjoined : ∀ field, (segments field).flatMap (fun s => '.' :: s.toList) =
      '.' :: field.toList := by
    intro field
    rw [← Text.flatMap_splitWhere '.' field.toList, segments, Text.splitOn, List.flatMap_map]
    simp only [String.toList_ofList]
  have hnames := hjoined f
  rw [h, hjoined g] at hnames
  exact (String.toList_inj.mp (List.cons.inj hnames).2).symm

/-- The characters of names without quotes. -/
def isNameChar (c : Char) : Bool := c.isAlphanum || c == '_'

/-- The name at the start of a path, and what follows it. -/
def readSegment : List Char → List Char × List Char
  | '"' :: cs => (cs.takeWhile (· ≠ '"'), (cs.dropWhile (· ≠ '"')).drop 1)
  | cs => (cs.takeWhile isNameChar, cs.dropWhile isNameChar)

/-- **A name on the path is read back**, if no character of a name follows. -/
theorem readSegment_append (hs : IsSegment s) (hrest : ∀ c ∈ rest.head?, isNameChar c = false) :
    readSegment ((quotedSegment s).toList ++ rest) = (s.toList, rest) := by
  by_cases hsimple : isSimpleSegment s = true
  · have hchars : ∀ c ∈ s.toList, isNameChar c = true := List.all_eq_true.mp hsimple
    have hend : rest.takeWhile isNameChar = [] ∧ rest.dropWhile isNameChar = rest := by
      cases rest with
      | nil => exact ⟨rfl, rfl⟩
      | cons c cs => simp [hrest c rfl]
    have hstart : ∀ cs, s.toList ++ rest ≠ '"' :: cs := by
      intro cs hquote
      cases hlist : s.toList with
      | nil => exact hs.ne_empty (String.toList_eq_nil_iff.mp hlist)
      | cons c more =>
        rw [hlist, List.cons_append, List.cons.injEq] at hquote
        exact hs.quote_not_mem (by rw [hlist, hquote.1]; exact List.mem_cons_self)
    rw [quotedSegment, if_pos hsimple, readSegment]
    · rw [List.takeWhile_append_of_pos hchars, List.dropWhile_append_of_pos hchars, hend.1, hend.2,
        List.append_nil]
    · exact hstart
  · have hchars : ∀ c ∈ s.toList, decide (c ≠ '"') = true := by
      intro c hc
      rw [decide_eq_true_eq]
      rintro rfl
      exact hs.quote_not_mem hc
    -- in quotes the name ends at the next quote, as it holds none itself
    have htext : (quotedSegment s).toList ++ rest = '"' :: (s.toList ++ '"' :: rest) := by
      rw [quotedSegment, if_neg hsimple]
      simp
    rw [htext, readSegment, List.takeWhile_append_of_pos hchars,
      List.dropWhile_append_of_pos hchars]
    simp

/-- Names on a path with a character in front of each. -/
def chained (separator : Char) (segs : List String) : List Char :=
  segs.flatMap fun s => separator :: (quotedSegment s).toList

variable {separator : Char} {segs segs' : List String} {after : List Char}

theorem chained_cons (separator : Char) (s : String) (segs : List String) :
    chained separator (s :: segs) =
      separator :: ((quotedSegment s).toList ++ chained separator segs) := rfl

/-- What follows a name on a path is no character of a name. -/
theorem isNameChar_head?_chained (hseparator : isNameChar separator = false)
    (hafter : ∀ c ∈ after.head?, isNameChar c = false) (segs : List String) :
    ∀ c ∈ (chained separator segs ++ after).head?, isNameChar c = false := by
  cases segs with
  | nil => exact hafter
  | cons s segs =>
    intro c hc
    rw [chained_cons, List.cons_append, List.head?_cons, Option.mem_def] at hc
    rw [← Option.some.inj hc]
    exact hseparator

/-- **A path tells the names on it.** -/
theorem chained_inj (hseparator : isNameChar separator = false)
    (hafter : ∀ c ∈ after.head?, isNameChar c = false ∧ c ≠ separator)
    (hsegs : ∀ s ∈ segs, IsSegment s) (hsegs' : ∀ s ∈ segs', IsSegment s)
    (h : chained separator segs ++ after = chained separator segs' ++ after) : segs = segs' := by
  have hend := isNameChar_head?_chained hseparator fun c hc => (hafter c hc).1
  -- where one path ends the other one does not go on
  have hstop : ∀ s segs, after ≠ chained separator (s :: segs) ++ after := by
    intro s segs hmore
    rw [chained_cons, List.cons_append] at hmore
    exact (hafter separator (by rw [hmore]; rfl)).2 rfl
  induction segs generalizing segs' with
  | nil =>
    cases segs' with
    | nil => rfl
    | cons t segs' => exact absurd h (hstop t segs')
  | cons s segs ih =>
    cases segs' with
    | nil => exact absurd h.symm (hstop s segs)
    | cons t segs' =>
      obtain ⟨hs, hsegs⟩ := List.forall_mem_cons.mp hsegs
      obtain ⟨ht, hsegs'⟩ := List.forall_mem_cons.mp hsegs'
      rw [chained_cons, chained_cons, List.cons_append, List.cons_append, List.append_assoc,
        List.append_assoc, List.cons.injEq] at h
      have hread := congrArg readSegment h.2
      rw [readSegment_append hs (hend segs), readSegment_append ht (hend segs'),
        Prod.mk.injEq] at hread
      rw [String.toList_inj.mp hread.1, ih hsegs hsegs' hread.2]

end Field

namespace Dialect

variable {f g : String}

/-! ### Paths -/

theorem toList_postgresPath (field : String) : ',' :: (postgresPath field).toList.drop 1 =
    Field.chained ',' (Field.segments field) ++ ['\x7d'] := by
  have hjoin : ∀ segs : List String, segs ≠ [] →
      ',' :: (Text.joinWith "," (segs.map Field.quotedSegment)).toList =
        Field.chained ',' segs := by
    intro segs hne
    induction segs with
    | nil => exact absurd rfl hne
    | cons s segs ih =>
      cases segs with
      | nil => simp [Field.chained]
      | cons t segs =>
        have hrest := ih (List.cons_ne_nil t segs)
        rw [List.map_cons] at hrest
        rw [Field.chained_cons, ← hrest]
        simp
  rw [← hjoin _ (Field.segments_ne_nil field), postgresPath]
  simp

theorem sqlitePath_inj (hf : Field.checkName f = .ok ()) (hg : Field.checkName g = .ok ())
    (h : sqlitePath f = sqlitePath g) : f = g := by
  have hlists := congrArg (fun s => s.toList.drop 1 ++ []) h
  simp only [toList_sqlitePath] at hlists
  exact Field.eq_of_segments_eq <| Field.chained_inj (by decide) (by simp)
    (Field.isSegment_of_checkName hf) (Field.isSegment_of_checkName hg) hlists

theorem postgresPath_inj (hf : Field.checkName f = .ok ()) (hg : Field.checkName g = .ok ())
    (h : postgresPath f = postgresPath g) : f = g := by
  have hlists := congrArg (fun s => ',' :: s.toList.drop 1) h
  simp only [toList_postgresPath] at hlists
  exact Field.eq_of_segments_eq <| Field.chained_inj (by decide) (by rintro c ⟨⟩; decide)
    (Field.isSegment_of_checkName hf) (Field.isSegment_of_checkName hg) hlists

/-! ### Members -/

/-- The operator behind the column of the documents, and the text of the literal behind it. -/
def access (d : Dialect) (field : String) : String × String :=
  match d with
  | sqlite => ("->>", sqlitePath field)
  | postgres =>
    if field.toList.contains '.' then ("#>>", postgresPath field) else ("->>", field)

/-- **Different fields are accessed differently.** -/
theorem access_inj {d : Dialect} (hf : Field.checkName f = .ok ()) (hg : Field.checkName g = .ok ())
    (h : d.access f = d.access g) : f = g := by
  cases d with
  | sqlite => exact sqlitePath_inj hf hg (Prod.mk.inj h).2
  | postgres =>
    simp only [access] at h
    split_ifs at h
    · exact postgresPath_inj hf hg (Prod.mk.inj h).2
    · exact absurd (Prod.mk.inj h).1 (by decide)
    · exact absurd (Prod.mk.inj h).1 (by decide)
    · exact (Prod.mk.inj h).2

/-- The tokens of an operator between the column of the documents and a literal. -/
def memberTokens (sign path : String) : List Token := [.word "doc", .sign sign, .literal path]

/-- The tokens of the text of a member, given the operator and the literal of its value. -/
def memberTextTokens (d : Dialect) (sign path : String) : List Token :=
  match d with
  | sqlite => .word "sift_text" :: .opening :: memberTokens "->" path ++ [.closing]
  | postgres => memberTokens sign path

/-- Plain text around a literal is read by its own tokens. -/
theorem tokens_around (d : Dialect) (before after : String) {ts us : List Token}
    (hbefore : isUnmarked before.toList = true) (hafter : isUnmarked after.toList = true)
    (hts : scan .gap before.toList = (ts, .gap)) (hus : tokenize after = some us)
    (hbreak : startsWithBreak after = true) (path : String) :
    d.tokens (before ++ quoteLiteral path ++ after) = some (ts ++ [.literal path] ++ us) := by
  have hfree : IsCommentFree d (before ++ quoteLiteral path ++ after) :=
    ((isCommentFree_of_isUnmarked d hbefore).append (isCommentFree_enquote d .single path)).append
      (isCommentFree_of_isUnmarked d hafter)
  rw [hfree.tokens_eq]
  exact tokenize_append (tokenize_append_of_gap hts (tokenize_quoteLiteral path)) hus hbreak

/-- An operator behind the column of the documents. -/
theorem tokens_operator (d : Dialect) {before sign : String}
    (hbefore : isUnmarked before.toList = true)
    (hscan : scan .gap before.toList = ([.word "doc", .sign sign], .gap)) (path : String) :
    d.tokens (before ++ quoteLiteral path) = some (memberTokens sign path) := by
  have htokens := tokens_around d before "" hbefore rfl hscan rfl rfl path
  rwa [String.append_empty] at htokens

theorem tokens_member (d : Dialect) (field : String) :
    d.tokens (d.member field) = some (memberTokens (d.access field).1 (d.access field).2) := by
  have harrow : ∀ path, d.tokens ("doc ->> " ++ quoteLiteral path) =
      some (memberTokens "->>" path) := tokens_operator d (by decide) rfl
  have hhash : ∀ path, d.tokens ("doc #>> " ++ quoteLiteral path) =
      some (memberTokens "#>>" path) := tokens_operator d (by decide) rfl
  cases d with
  | sqlite => exact harrow _
  | postgres =>
    simp only [member, access]
    split_ifs
    · exact hhash _
    · exact harrow _

theorem tokens_memberText (d : Dialect) (field : String) :
    d.tokens (d.memberText field) =
      some (memberTextTokens d (d.access field).1 (d.access field).2) := by
  cases d with
  | sqlite => exact tokens_around sqlite "sift_text(doc -> " ")" (by decide) rfl rfl rfl rfl _
  | postgres => exact tokens_member postgres field

/-- The tokens of a member tell how it is accessed. -/
theorem access_eq_of_memberTokens_eq {d : Dialect}
    (h : memberTokens (d.access f).1 (d.access f).2 = memberTokens (d.access g).1 (d.access g).2) :
    d.access f = d.access g := by
  simp only [memberTokens, List.cons.injEq, Token.sign.injEq, Token.literal.injEq] at h
  exact Prod.ext h.2.1 h.2.2.1

/-- So do the tokens of its text. -/
theorem access_eq_of_memberTextTokens_eq {d : Dialect}
    (h : memberTextTokens d (d.access f).1 (d.access f).2 =
      memberTextTokens d (d.access g).1 (d.access g).2) : d.access f = d.access g := by
  cases d with
  | sqlite =>
    simp only [memberTextTokens, memberTokens, List.cons_append, List.cons.injEq,
      Token.literal.injEq] at h
    exact congrArg (Prod.mk "->>") h.2.2.2.2.1
  | postgres => exact access_eq_of_memberTokens_eq h

/-! ### Fields -/

/-- The tokens of a field whose member has these tokens. -/
def fieldTokens (field : String) (member : List Token) : List Token :=
  if field = "_id" then [.word "id"] else if field = "_type" then [.word "type"] else member

theorem tokens_getD_column? {d : Dialect} {field member : String} {ts : List Token}
    (h : d.tokens member = some ts) :
    d.tokens ((column? field).getD member) = some (fieldTokens field ts) := by
  have hword : ∀ name : String, isUnmarked name.toList = true →
      tokenize name = some [.word name] → d.tokens name = some [.word name] :=
    fun _ hbare hname => (isCommentFree_of_isUnmarked d hbare).tokens_eq.trans hname
  unfold column? fieldTokens
  split_ifs
  · exact hword "id" (by decide) rfl
  · exact hword "type" (by decide) rfl
  · exact h

/-- A column is told from every other one and from a member. -/
theorem eq_of_fieldTokens_eq {member member' : List Token} (hmember : ∀ t, member ≠ [t])
    (hmember' : ∀ t, member' ≠ [t]) (hinj : member = member' → f = g)
    (h : fieldTokens f member = fieldTokens g member') : f = g := by
  unfold fieldTokens at h
  by_cases hf : f = "_id" ∨ f = "_type"
  · rcases hf with rfl | rfl
    · rw [if_pos rfl] at h
      split_ifs at h with hid htype
      · exact hid.symm
      · exact absurd h (by decide)
      · exact absurd h.symm (hmember' _)
    · rw [if_neg (by decide), if_pos rfl] at h
      split_ifs at h with hid htype
      · exact absurd h (by decide)
      · exact htype.symm
      · exact absurd h.symm (hmember' _)
  · obtain ⟨hid, htype⟩ := not_or.mp hf
    rw [if_neg hid, if_neg htype] at h
    split_ifs at h
    · exact absurd h (hmember _)
    · exact absurd h (hmember _)
    · exact hinj h

/-- **What the expressions of a field are read as, and that no other field has them.**  A column
is read for the identifier and for the type; for any other field it is an operator between the
column of the documents and one literal, which SQLite puts into a call to read the text. -/
theorem field_expressions (d : Dialect) (hf : Field.checkName f = .ok ()) :
    (∃ sign path, sign ∈ ["->>", "#>>"] ∧
      d.tokens (d.fieldValue f) = some (fieldTokens f (memberTokens sign path)) ∧
      d.tokens (d.fieldText f) = some (fieldTokens f (memberTextTokens d sign path))) ∧
    ∀ g, Field.checkName g = .ok () →
      (d.fieldValue f = d.fieldValue g → f = g) ∧ (d.fieldText f = d.fieldText g → f = g) := by
  have hvalue : ∀ field, d.tokens (d.fieldValue field) = _ := fun field =>
    tokens_getD_column? (tokens_member d field)
  have htext : ∀ field, d.tokens (d.fieldText field) = _ := fun field =>
    tokens_getD_column? (tokens_memberText d field)
  have hsign : (d.access f).1 ∈ ["->>", "#>>"] := by
    cases d with
    | sqlite => simp [access]
    | postgres =>
      simp only [access]
      split_ifs <;> simp
  refine ⟨⟨_, _, hsign, hvalue f, htext f⟩, fun g hg => ⟨fun h => ?_, fun h => ?_⟩⟩
  · have htokens := congrArg d.tokens h
    rw [hvalue, hvalue, Option.some.injEq] at htokens
    exact eq_of_fieldTokens_eq (by simp [memberTokens]) (by simp [memberTokens])
      (fun hmember => access_inj hf hg (access_eq_of_memberTokens_eq hmember)) htokens
  · have htokens := congrArg d.tokens h
    have hlong : ∀ sign path t, memberTextTokens d sign path ≠ [t] := by
      cases d <;> simp [memberTextTokens, memberTokens]
    rw [htext, htext, Option.some.injEq] at htokens
    exact eq_of_fieldTokens_eq (hlong _ _) (hlong _ _)
      (fun hmember => access_inj hf hg (access_eq_of_memberTextTokens_eq hmember)) htokens

/-- A name with an apostrophe, a question mark and marks of comments, and one that is its start. -/
theorem field_expressions_marks :
    Field.checkName "it's.a?--/*" = .ok () ∧ Field.checkName "it's.a?" = .ok () ∧
    (∃ sign path, sign ∈ ["->>", "#>>"] ∧
      postgres.tokens (postgres.fieldValue "it's.a?--/*") =
        some [.word "doc", .sign sign, .literal path] ∧
      postgres.tokens (postgres.fieldText "it's.a?--/*") =
        some [.word "doc", .sign sign, .literal path]) ∧
    postgres.fieldValue "it's.a?--/*" ≠ postgres.fieldValue "it's.a?" := by
  have hname : Field.checkName "it's.a?--/*" = .ok () := by rfl
  have hstart : Field.checkName "it's.a?" = .ok () := by rfl
  obtain ⟨htokens, hother⟩ := field_expressions postgres hname
  exact ⟨hname, hstart, htokens, fun h => absurd ((hother _ hstart).1 h) (by decide)⟩

end Dialect

end DocSearch
