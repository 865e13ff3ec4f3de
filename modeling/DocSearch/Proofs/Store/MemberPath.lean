import DocSearch.Proofs.Digest
import DocSearch.Proofs.Sql.FieldPath
import DocSearch.Store.Path
import Mathlib.Data.List.Basic
import Mathlib.Data.List.TakeWhile

/-!
# Where the path of a field leads

The path of a field is read byte by byte, and a name in quotes may have escapes in it.  A name
that has no backslash is read as its characters, so the path has one step for each name of the
field, and following it is looking up one name after the other.

Two members that differ behind a NUL only are the same for a path, so no name of an object on
the way may have one.

## Main definitions

* `Json.at?` — the member that several names lead to.
* `Json.hasPlainNames` — whether no name on the way has a NUL.

## Main results

* `unescapeName_utf8` — the bytes of a text without a backslash are read as its characters.
* `pathSteps_sqlitePath` — the steps of the path of a field.
* `followPath_sqlitePath` — **the path of a field leads to the member that the field names**.
-/

namespace DocSearch

/-! ### Names that are read from bytes -/

/-- The bytes of a text are those of its characters. -/
theorem Text.utf8_eq_flatMap (s : String) :
    Text.utf8 s = s.toList.flatMap String.utf8EncodeChar := by
  have hbytes : s.toByteArray = (s.toList.flatMap String.utf8EncodeChar).toByteArray :=
    String.utf8Encode_toList.symm
  rw [Text.utf8, String.toUTF8, hbytes, ByteArray.toList, toList_loop_eq, List.data_toByteArray]
  rfl

/-- A byte that does not continue a character ends the one before it. -/
theorem takeWhile_continuesCodePoint {others rest : List UInt8} (hlength : others.length ≤ 3)
    (hothers : ∀ b ∈ others, continuesCodePoint b = true)
    (hrest : ∀ b ∈ rest.head?, continuesCodePoint b = false) :
    ((others ++ rest).take 3).takeWhile continuesCodePoint = others := by
  rw [List.take_append, List.take_of_length_le hlength, List.takeWhile_append_of_pos hothers]
  cases rest with
  | nil => simp
  | cons b bs =>
    have hb : continuesCodePoint b = false := hrest b rfl
    cases 3 - others.length with
    | zero => simp
    | succ n => simp [hb]

/-- The first byte of several says where the character ends. -/
theorem readCodePoint_append {b : UInt8} (hb : ¬ b < 0xC0) {others rest : List UInt8}
    (hlength : others.length ≤ 3) (hothers : ∀ b ∈ others, continuesCodePoint b = true)
    (hrest : ∀ b ∈ rest.head?, continuesCodePoint b = false) :
    readCodePoint b (others ++ rest) =
      (others.foldl (fun n c => 64 * n + c.toNat % 64) (leadingValue b), rest) := by
  rw [readCodePoint, if_neg hb]
  simp only [takeWhile_continuesCodePoint hlength hothers hrest, List.drop_left]

theorem continuesCodePoint_ofNat {n : Nat} (hn : n < 256) :
    continuesCodePoint (UInt8.ofNat n) = (n / 64 == 2) := by
  rw [continuesCodePoint, UInt8.toNat_ofNat_of_lt' hn]

theorem leadingValue_ofNat {n : Nat} (hn : n < 256) : leadingValue (UInt8.ofNat n) =
    if n < 0xE0 then n % 32 else if n < 0xF0 then n % 16 else n % 8 := by
  have hE0 : UInt8.ofNat n < 0xE0 ↔ n < 0xE0 := UInt8.ofNat_lt_iff_lt hn (by decide)
  have hF0 : UInt8.ofNat n < 0xF0 ↔ n < 0xF0 := UInt8.ofNat_lt_iff_lt hn (by decide)
  simp only [leadingValue, hE0, hF0, UInt8.toNat_ofNat_of_lt' hn]

theorem char_toNat_lt (c : Char) : c.toNat < 0x110000 := by
  have hvalid := c.valid
  simp only [UInt32.isValidChar, Nat.isValidChar] at hvalid
  rw [← Char.toNat_val]
  omega

/-- A small byte is a code point on its own. -/
theorem readCodePoint_single {n : Nat} (hn : n < 0xC0) (rest : List UInt8) :
    readCodePoint (UInt8.ofNat n) rest = (n, rest) := by
  have hlt : n < UInt8.size := Nat.lt_trans hn (by decide)
  have hsmall : UInt8.ofNat n < 0xC0 := (UInt8.ofNat_lt_iff_lt hlt (by decide)).mpr hn
  rw [readCodePoint, if_pos hsmall, UInt8.toNat_ofNat_of_lt' hlt]

/-- The bytes of a code point: a few bits in the first one, which also says how many bytes there
are, and six bits in each of the others. -/
theorem readCodePoint_several {first : Nat} (others : List Nat) {rest : List UInt8}
    (hfirst : 0xC0 ≤ first) (hlt : first < 256) (hlength : others.length ≤ 3)
    (hothers : ∀ n ∈ others, n < 64) (hrest : ∀ b ∈ rest.head?, continuesCodePoint b = false) :
    readCodePoint (UInt8.ofNat first) (others.map (fun n => UInt8.ofNat (n + 128)) ++ rest) =
      (others.foldl (fun n k => 64 * n + k) (if first < 0xE0 then first % 32
        else if first < 0xF0 then first % 16 else first % 8), rest) := by
  have hlarge : ¬ UInt8.ofNat first < 0xC0 := fun h =>
    Nat.not_lt.mpr hfirst ((UInt8.ofNat_lt_iff_lt hlt (by decide)).mp h)
  rw [readCodePoint_append hlarge (by simpa using hlength) ?_ hrest, leadingValue_ofNat hlt,
    List.foldl_map]
  · refine congrArg (·, rest) (List.foldl_ext _ _ _ fun acc n hn => ?_)
    have := hothers n hn
    rw [UInt8.toNat_ofNat']
    omega
  · intro b hb
    obtain ⟨n, hn, rfl⟩ := List.mem_map.mp hb
    have := hothers n hn
    rw [continuesCodePoint_ofNat (by omega), beq_iff_eq]
    omega

/-- **The bytes of a character are read as its code point**, and nothing behind them. -/
theorem exists_readCodePoint (c : Char) (rest : List UInt8)
    (hrest : ∀ b ∈ rest.head?, continuesCodePoint b = false) :
    ∃ first bytes, String.utf8EncodeChar c ++ rest = UInt8.ofNat first :: bytes ∧
      readCodePoint (UInt8.ofNat first) bytes = (c.toNat, rest) ∧
      first < 256 ∧ (first < 0x80 ∧ first = c.toNat ∨ 0xC0 ≤ first) := by
  have hlt := char_toNat_lt c
  rw [String.utf8EncodeChar, Char.toNat_val]
  generalize c.toNat = n at *
  have hmod : ∀ k, k % 64 < 64 := fun k => Nat.mod_lt k (by decide)
  -- one byte for a code point below 128, and one more at each of the next bounds
  split_ifs with h1 h2 h3
  · exact ⟨n, rest, rfl, readCodePoint_single (by omega) rest, by omega, .inl ⟨by omega, rfl⟩⟩
  · refine ⟨n / 64 % 32 + 192, _, rfl, ?_, by omega, .inr (by omega)⟩
    refine (readCodePoint_several [n % 64] (by omega) (by omega) (by simp)
      (by simp [hmod]) hrest).trans ?_
    simp only [List.foldl_cons, List.foldl_nil]
    rw [if_pos (by omega)]
    congr 1
    omega
  · refine ⟨n / 4096 % 16 + 224, _, rfl, ?_, by omega, .inr (by omega)⟩
    refine (readCodePoint_several [n / 64 % 64, n % 64] (by omega) (by omega) (by simp)
      (by simp [hmod]) hrest).trans ?_
    simp only [List.foldl_cons, List.foldl_nil]
    rw [if_neg (by omega), if_pos (by omega)]
    congr 1
    omega
  · refine ⟨n / 262144 % 8 + 240, _, rfl, ?_, by omega, .inr (by omega)⟩
    refine (readCodePoint_several [n / 4096 % 64, n / 64 % 64, n % 64] (by omega) (by omega)
      (by simp) (by simp [hmod]) hrest).trans ?_
    simp only [List.foldl_cons, List.foldl_nil]
    rw [if_neg (by omega), if_neg (by omega)]
    congr 1
    omega

theorem continuesCodePoint_head (cs : List Char) :
    ∀ b ∈ (cs.flatMap String.utf8EncodeChar).head?, continuesCodePoint b = false := by
  cases cs with
  | nil => simp
  | cons c cs =>
    obtain ⟨first, bytes, heq, -, hlt, hfirst⟩ := exists_readCodePoint c [] (by simp)
    rw [List.append_nil] at heq
    rw [List.flatMap_cons, heq, List.cons_append, List.head?_cons]
    rintro b ⟨⟩
    rw [continuesCodePoint_ofNat hlt, beq_eq_false_iff_ne]
    omega

/-- **The bytes of a text without a backslash are read as its characters.** -/
theorem unescapeName_utf8 {cs : List Char} (hslash : '\\' ∉ cs) :
    unescapeName (Text.utf8 (String.ofList cs)) = cs.map Char.toNat := by
  rw [Text.utf8_eq_flatMap, String.toList_ofList]
  induction cs with
  | nil => rw [List.flatMap_nil, unescapeName, List.map_nil]
  | cons c cs ih =>
    obtain ⟨hc, hcs⟩ := not_or.mp (mt List.mem_cons.mpr hslash)
    obtain ⟨first, bytes, heq, hread, hlt, hfirst⟩ :=
      exists_readCodePoint c _ (continuesCodePoint_head cs)
    have hplain : UInt8.ofNat first ≠ 0x5C := by
      intro h
      have hcode : first = 0x5C := by
        have := congrArg UInt8.toNat h
        rwa [UInt8.toNat_ofNat_of_lt' hlt] at this
      refine hc (Char.toNat_inj.mp ?_)
      show 0x5C = c.toNat
      omega
    rw [List.flatMap_cons, heq, unescapeName, readNameCode, if_neg hplain, hread, List.map_cons,
      ih hcs]

/-! ### Steps of a path -/

/-- A name up to its closing quote. -/
theorem takeQuotedName_append {cs : List Char} (hquote : '"' ∉ cs) (hslash : '\\' ∉ cs)
    (rest : List Char) : takeQuotedName (cs ++ '"' :: rest) = some (cs, rest) := by
  induction cs with
  | nil => simp [takeQuotedName]
  | cons c cs ih =>
    obtain ⟨hc, hquote⟩ := not_or.mp (mt List.mem_cons.mpr hquote)
    obtain ⟨hc', hslash⟩ := not_or.mp (mt List.mem_cons.mpr hslash)
    rw [List.cons_append, takeQuotedName, ih hquote hslash]
    · rfl
    · exact fun h => hc h.symm
    · exact fun _ _ h => absurd h.symm hc'

namespace Field

variable {field s : String} {c : Char}

/-- The characters of a name on the path are characters of the field. -/
theorem mem_of_mem_segments (hs : s ∈ segments field) (hc : c ∈ s.toList) : c ∈ field.toList := by
  obtain ⟨piece, hpiece, rfl⟩ := List.mem_map.mp hs
  rw [String.toList_ofList] at hc
  exact Text.mem_of_mem_splitWhere hpiece hc

/-- A field that is not refused has no control characters. -/
theorem isControl_of_mem (h : checkName field = .ok ()) (hc : c ∈ field.toList) :
    Text.isControl c = false := by
  rw [checkName] at h
  split at h
  · cases h
  split at h
  · cases h
  split at h
  · cases h
  · next hforbidden =>
    rw [List.any_eq_true, not_exists] at hforbidden
    exact Bool.eq_false_iff.mpr fun hcontrol => hforbidden c ⟨hc, by simp [hcontrol]⟩

end Field

/-- Behind a name the path is at its end or goes on with a point. -/
def EndsName (rest : List Char) : Prop := ∀ c ∈ rest.head?, c = '.'

/-- A name without quotes is read up to the next point. -/
theorem readSteps_bareName {cs rest : List Char} (hne : cs ≠ [])
    (hcs : ∀ c ∈ cs, endsBareName c = false ∧ c ≠ '"') (hrest : EndsName rest) :
    readSteps ('.' :: (cs ++ rest)) = .member (cs.map Char.toNat) :: readSteps rest := by
  have hall : ∀ c ∈ cs, (!endsBareName c) = true := fun c hc => by rw [(hcs c hc).1]; rfl
  have hstop : rest.takeWhile (!endsBareName ·) = [] ∧ rest.dropWhile (!endsBareName ·) = rest := by
    cases rest with
    | nil => exact ⟨rfl, rfl⟩
    | cons c rest =>
      obtain rfl := hrest c rfl
      exact ⟨rfl, rfl⟩
  have htake : (cs ++ rest).takeWhile (!endsBareName ·) = cs := by
    rw [List.takeWhile_append_of_pos hall, hstop.1, List.append_nil]
  have hdrop : (cs ++ rest).dropWhile (!endsBareName ·) = rest := by
    rw [List.dropWhile_append_of_pos hall, hstop.2]
  rw [readSteps]
  · simp only [htake, hdrop]
    rw [if_neg (by simpa using hne), bareName, String.toList_ofList]
  · intro quoted heq
    cases cs with
    | nil => exact hne rfl
    | cons c cs => exact (hcs c List.mem_cons_self).2 (List.cons.inj heq).1

/-- A name in quotes is read up to the next quote. -/
theorem readSteps_quotedName {cs rest : List Char} (hquote : '"' ∉ cs) (hslash : '\\' ∉ cs) :
    readSteps ('.' :: '"' :: (cs ++ '"' :: rest)) =
      .member (cs.map Char.toNat) :: readSteps rest := by
  have htake := takeQuotedName_append hquote hslash rest
  rw [readSteps]
  split
  · next hnone =>
    rw [htake] at hnone
    cases hnone
  · next name rest' hsome =>
    obtain ⟨rfl, rfl⟩ := Prod.mk.inj (Option.some.inj (htake.symm.trans hsome))
    rw [unescapeName_utf8 hslash]

/-- **A name of a field is one step of its path.** -/
theorem readSteps_quotedSegment {s : String} (hs : s ≠ "") (hquote : '"' ∉ s.toList)
    (hslash : '\\' ∉ s.toList) {rest : List Char} (hrest : EndsName rest) :
    readSteps ('.' :: ((Field.quotedSegment s).toList ++ rest)) =
      .member (s.toList.map Char.toNat) :: readSteps rest := by
  rw [Field.quotedSegment]
  split
  · next hsimple =>
    refine readSteps_bareName (by simpa using hs) (fun c hc => ?_) hrest
    have hletter : (c.isAlphanum || c == '_') = true := List.all_eq_true.mp hsimple c hc
    have hne : ∀ d : Char, (d.isAlphanum || d == '_') = false → c ≠ d := by
      rintro d hd rfl
      rw [hletter] at hd
      cases hd
    refine ⟨?_, hne '"' rfl⟩
    rw [endsBareName, Bool.or_eq_false_iff, beq_eq_false_iff_ne, beq_eq_false_iff_ne]
    exact ⟨hne '.' rfl, hne '[' rfl⟩
  · have htext : ("\"" ++ s ++ "\"").toList ++ rest = '"' :: (s.toList ++ '"' :: rest) := by
      simp [String.toList_append]
    rw [htext, readSteps_quotedName hquote hslash]

/-- The path of a field behind the dollar sign. -/
theorem toList_sqlitePath (field : String) : (Dialect.sqlitePath field).toList.drop 1 =
    (Field.segments field).flatMap fun s => '.' :: (Field.quotedSegment s).toList := by
  rw [Dialect.sqlitePath, String.toList_append]
  show (String.join _).toList = _
  simp [List.flatMap_map]

/-- **The steps of the path of a field.** -/
theorem pathSteps_sqlitePath {field : String} (hfield : Field.checkName field = .ok ())
    (hslash : '\\' ∉ field.toList) : pathSteps (Dialect.sqlitePath field) =
      (Field.segments field).map fun s => .member (s.toList.map Char.toNat) := by
  have hsegments := Field.isSegment_of_checkName hfield
  have hplain : ∀ s ∈ Field.segments field, '\\' ∉ s.toList :=
    fun s hs hc => hslash (Field.mem_of_mem_segments hs hc)
  rw [pathSteps, toList_sqlitePath]
  generalize Field.segments field = segs at *
  induction segs with
  | nil => rw [List.flatMap_nil, readSteps, List.map_nil]
  | cons s segs ih =>
    obtain ⟨hs, hsegments⟩ := List.forall_mem_cons.mp hsegments
    obtain ⟨hs', hplain⟩ := List.forall_mem_cons.mp hplain
    -- a name without quotes ends here only because a point or nothing follows
    have hrest : EndsName (segs.flatMap fun s => '.' :: (Field.quotedSegment s).toList) := by
      cases segs <;> simp [EndsName]
    rw [List.flatMap_cons, List.cons_append,
      readSteps_quotedSegment hs.ne_empty hs.quote_not_mem hs' hrest, ih hsegments hplain,
      List.map_cons]

/-! ### Following the steps -/

/-- The member that several names lead to. -/
def Json.at? : Json → List String → Option Json
  | v, [] => some v
  | v, name :: names => (v.member? name).bind (·.at? names)

/-- Whether no name of an object on the way has a NUL. -/
def Json.hasPlainNames : List String → Json → Bool
  | name :: names, .obj members =>
    (members.all fun m => !m.1.toList.contains '\x00') &&
      (members.lookup name).all (hasPlainNames names)
  | _, _ => true

theorem upToNul_of_notMem {cs : List Char} (h : '\x00' ∉ cs) :
    upToNul (cs.map Char.toNat) = cs.map Char.toNat := by
  rw [upToNul, List.takeWhile_eq_self_iff]
  intro n hn
  obtain ⟨c, hc, rfl⟩ := List.mem_map.mp hn
  refine bne_iff_ne.mpr fun heq => h ?_
  have hnul : c = '\x00' := Char.toNat_inj.mp heq
  exact hnul ▸ hc

/-- Without a NUL, a name means the member of this name only. -/
theorem sameName_iff {s name : String} (hs : '\x00' ∉ s.toList) (hname : '\x00' ∉ name.toList) :
    sameName (s.toList.map Char.toNat) name = (s == name) := by
  rw [sameName, bareName, upToNul_of_notMem hs, upToNul_of_notMem hname, Bool.eq_iff_iff,
    beq_iff_eq, beq_iff_eq, List.map_inj_right fun _ _ => Char.toNat_inj.mp, String.toList_inj]

theorem find?_sameName {s : String} (hs : '\x00' ∉ s.toList) {members : List (String × Json)}
    (hmembers : ∀ m ∈ members, '\x00' ∉ m.1.toList) :
    members.find? (fun (name, _) => sameName (s.toList.map Char.toNat) name) =
      (members.lookup s).map (s, ·) := by
  induction members with
  | nil => rfl
  | cons m members ih =>
    obtain ⟨name, v⟩ := m
    obtain ⟨hname, hmembers⟩ := List.forall_mem_cons.mp hmembers
    have hsame : sameName (s.toList.map Char.toNat) name = (s == name) := sameName_iff hs hname
    rw [List.find?_cons, List.lookup_cons, ih hmembers]
    dsimp only
    rw [hsame]
    cases hsn : s == name with
    | true => rw [beq_iff_eq.mp hsn]; rfl
    | false => rfl

/-- **The path of a field leads to the member that the field names.** -/
theorem followPath_sqlitePath {field : String} (hfield : Field.checkName field = .ok ())
    (hslash : '\\' ∉ field.toList) {v : Json} (hv : v.hasPlainNames (Field.segments field)) :
    followPath (Dialect.sqlitePath field) v = .ok (v.at? (Field.segments field)) := by
  have hplain : ∀ s ∈ Field.segments field, '\x00' ∉ s.toList := fun s hs hc =>
    absurd (Field.isControl_of_mem hfield (Field.mem_of_mem_segments hs hc)) (by decide)
  rw [followPath, pathSteps_sqlitePath hfield hslash]
  generalize Field.segments field = segs at *
  induction segs generalizing v with
  | nil => rfl
  | cons s segs ih =>
    obtain ⟨hs, hplain⟩ := List.forall_mem_cons.mp hplain
    rw [List.map_cons, Json.at?]
    cases v with
    | obj members =>
      obtain ⟨hmembers, hnext⟩ := Bool.and_eq_true_iff.mp hv
      have hnames : ∀ m ∈ members, '\x00' ∉ m.1.toList := by simpa using hmembers
      rw [followSteps, find?_sameName hs hnames, Json.member?]
      cases hmember : members.lookup s with
      | none => rfl
      | some w =>
        rw [hmember] at hnext
        exact ih hnext hplain
    | _ => rfl

end DocSearch
