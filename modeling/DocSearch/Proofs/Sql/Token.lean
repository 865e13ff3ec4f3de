import DocSearch.Sql.Quoting
import DocSearch.Text

/-!
# Tokens of statements

A database reads a statement as words, quoted literals and names, operator signs,
placeholders, commas and parentheses.  A scan goes through the text one character
at a time; what it is in the middle of is its mode, and a character that cannot
continue the mode ends the token and starts something new.  Nothing but quotes keeps
a blank, a comma or a parenthesis from ending a token, so texts that are put together
at such places are read piece by piece.

## Main definitions

* `Token` — the tokens.
* `Mode`, `Mode.step`, `scan` — the scan.
* `tokenize` — the tokens of a text, unless a quote is left open.

## Main results

* `tokenize_append` — texts that meet at a break are read piece by piece.
* `tokenize_quoteLiteral` — a quoted literal is one token, whatever it holds.
-/

namespace DocSearch.Sql

/-! ### Tokens -/

/-- A token of a statement. -/
inductive Token where
  /-- A keyword, a bare name or a number. -/
  | word (s : String)
  /-- A text in single quotes. -/
  | literal (s : String)
  /-- A name in double quotes. -/
  | name (s : String)
  /-- An operator. -/
  | sign (s : String)
  /-- A place for a value. -/
  | placeholder
  /-- A comma. -/
  | comma
  /-- An opening parenthesis. -/
  | opening
  /-- A closing parenthesis. -/
  | closing
  deriving DecidableEq, Repr

/-- The two quotes. -/
inductive Quote where
  /-- The quote of literals. -/
  | single
  /-- The quote of names. -/
  | double
  deriving DecidableEq, Repr

/-- The character of a quote. -/
def Quote.char : Quote → Char
  | single => '\x27'
  | double => '"'

/-- The token of a text in quotes. -/
def Quote.token : Quote → String → Token
  | single => .literal
  | double => .name

/-- What a character that continues nothing starts. -/
inductive CharClass where
  /-- Nothing. -/
  | blank
  /-- A word. -/
  | letter
  /-- A quoted text. -/
  | quote (q : Quote)
  /-- A token of its own. -/
  | mark (t : Token)
  /-- An operator. -/
  | sign
  deriving DecidableEq

/-- The class of a character. -/
def charClass (c : Char) : CharClass :=
  if Text.isBlank c then .blank
  else if c.isAlphanum || c == '_' || c == '.' then .letter
  else if c = '\x27' then .quote .single
  else if c = '"' then .quote .double
  else if c = '?' then .mark .placeholder
  else if c = ',' then .mark .comma
  else if c = '(' then .mark .opening
  else if c = ')' then .mark .closing
  else .sign

/-! ### The scan -/

/-- What a scan is in the middle of. -/
inductive Mode where
  /-- Nothing. -/
  | gap
  /-- A word. -/
  | word (cs : List Char)
  /-- An operator. -/
  | sign (cs : List Char)
  /-- A quoted text. -/
  | inside (q : Quote) (cs : List Char)
  /-- Behind a quote in a quoted text, which ends it unless another quote follows. -/
  | behind (q : Quote) (cs : List Char)
  deriving DecidableEq

namespace Mode

/-- The token that ends where the text ends or something new starts. -/
def pending : Mode → List Token
  | gap => []
  | word cs => [.word (String.ofList cs)]
  | sign cs => [.sign (String.ofList cs)]
  | inside _ _ => []
  | behind q cs => [q.token (String.ofList cs)]

/-- Whether no quoted text is open. -/
def isClosed : Mode → Bool
  | inside _ _ => false
  | _ => true

/-- Start with a character of a class. -/
def startClass (c : Char) : CharClass → List Token × Mode
  | .blank => ([], gap)
  | .letter => ([], word [c])
  | .quote q => ([], inside q [])
  | .mark t => ([t], gap)
  | .sign => ([], sign [c])

/-- Start with a character. -/
def start (c : Char) : List Token × Mode := startClass c (charClass c)

/-- End what is pending and start with a character. -/
def flush (m : Mode) (c : Char) : List Token × Mode := (m.pending ++ (start c).1, (start c).2)

/-- Take a character; the tokens are those that end before or with it. -/
def step (m : Mode) (c : Char) : List Token × Mode :=
  match m with
  | gap => start c
  | word cs => if charClass c = .letter then ([], word (cs ++ [c])) else flush (word cs) c
  | sign cs => if charClass c = .sign then ([], sign (cs ++ [c])) else flush (sign cs) c
  | inside q cs => if c = q.char then ([], behind q cs) else ([], inside q (cs ++ [c]))
  | behind q cs => if c = q.char then ([], inside q (cs ++ [c])) else flush (behind q cs) c

end Mode

/-- Take the characters of a text one after the other. -/
def scan : Mode → List Char → List Token × Mode
  | m, [] => ([], m)
  | m, c :: cs => ((m.step c).1 ++ (scan (m.step c).2 cs).1, (scan (m.step c).2 cs).2)

/-- The tokens of a text; there are none if a quoted text is left open. -/
def tokenize (s : String) : Option (List Token) :=
  let (ts, m) := scan .gap s.toList
  if m.isClosed then some (ts ++ m.pending) else none

@[simp] theorem scan_nil (m : Mode) : scan m [] = ([], m) := rfl

theorem scan_cons (m : Mode) (c : Char) (cs : List Char) :
    scan m (c :: cs) = ((m.step c).1 ++ (scan (m.step c).2 cs).1, (scan (m.step c).2 cs).2) := rfl

theorem scan_append (m : Mode) (cs ds : List Char) :
    scan m (cs ++ ds) =
      ((scan m cs).1 ++ (scan (scan m cs).2 ds).1, (scan (scan m cs).2 ds).2) := by
  induction cs generalizing m with
  | nil => rfl
  | cons c cs ih => rw [List.cons_append, scan_cons, ih, scan_cons]; simp

theorem tokenize_eq_some_iff {s : String} {ts : List Token} :
    tokenize s = some ts ↔ (scan .gap s.toList).2.isClosed = true ∧
      (scan .gap s.toList).1 ++ (scan .gap s.toList).2.pending = ts := by
  simp only [tokenize, Option.ite_none_right_eq_some, Option.some.injEq]

theorem tokenize_of_gap {s : String} {ts : List Token} (hs : scan .gap s.toList = (ts, .gap)) :
    tokenize s = some ts := by
  rw [tokenize_eq_some_iff, hs]
  exact ⟨rfl, List.append_nil ts⟩

/-! ### Texts that meet at a break -/

/-- Whether a character of a class ends every token outside quotes. -/
def CharClass.isBreak : CharClass → Bool
  | blank | mark _ => true
  | letter | quote _ | sign => false

/-- Whether a character ends every token outside quotes. -/
def isBreak (c : Char) : Bool := (charClass c).isBreak

/-- Whether a text starts with a break, if with anything. -/
def startsWithBreak (s : String) : Bool := s.toList.head?.all isBreak

theorem ne_quote_of_isBreak {c : Char} (h : isBreak c = true) (q : Quote) : c ≠ q.char := by
  rintro rfl
  cases q <;> exact absurd h (by decide +kernel)

/-- A break ends what is pending, whatever it is. -/
theorem Mode.step_of_isBreak {m : Mode} {c : Char} (hm : m.isClosed = true)
    (hc : isBreak c = true) : m.step c = m.flush c := by
  cases m with
  | gap => simp [step, flush, pending]
  | word cs => rw [step, if_neg (by rintro h; simp [isBreak, h, CharClass.isBreak] at hc)]
  | sign cs => rw [step, if_neg (by rintro h; simp [isBreak, h, CharClass.isBreak] at hc)]
  | inside q cs => simp [isClosed] at hm
  | behind q cs => rw [step, if_neg (ne_quote_of_isBreak hc q)]

theorem scan_of_startsWithBreak {m : Mode} {s : String} (hm : m.isClosed = true)
    (hs : startsWithBreak s = true) (hne : s ≠ "") :
    scan m s.toList = (m.pending ++ (scan .gap s.toList).1, (scan .gap s.toList).2) := by
  cases h : s.toList with
  | nil => exact absurd (String.toList_eq_nil_iff.mp h) hne
  | cons c cs =>
    have hc : isBreak c = true := by simpa [startsWithBreak, h] using hs
    rw [scan_cons, scan_cons, m.step_of_isBreak hm hc]
    simp [Mode.flush, Mode.step]

/-- **Texts that meet at a break are read piece by piece.** -/
theorem tokenize_append {s t : String} {ts us : List Token} (hs : tokenize s = some ts)
    (ht : tokenize t = some us) (hbreak : startsWithBreak t = true) :
    tokenize (s ++ t) = some (ts ++ us) := by
  by_cases hne : t = ""
  · subst hne
    have hus : us = [] := by simpa [tokenize, Mode.isClosed, Mode.pending, eq_comm] using ht
    simpa [hus] using hs
  · -- the break at the start of `t` ends what is pending behind `s`
    rw [tokenize_eq_some_iff] at hs ht ⊢
    rw [String.toList_append, scan_append, scan_of_startsWithBreak hs.1 hbreak hne]
    exact ⟨ht.1, by rw [← hs.2, ← ht.2]; simp⟩

/-- A text behind which nothing is pending may be followed by anything. -/
theorem tokenize_append_of_gap {s t : String} {ts us : List Token}
    (hs : scan .gap s.toList = (ts, .gap)) (ht : tokenize t = some us) :
    tokenize (s ++ t) = some (ts ++ us) := by
  rw [tokenize_eq_some_iff] at ht ⊢
  rw [String.toList_append, scan_append, hs]
  exact ⟨ht.1, by rw [← ht.2]; simp⟩

/-- Behind a text in parentheses nothing is pending. -/
theorem scan_parenthesized {s : String} {ts : List Token} (hs : tokenize s = some ts) :
    scan .gap ("(" ++ s ++ ")").toList = (.opening :: ts ++ [.closing], .gap) := by
  rw [tokenize_eq_some_iff] at hs
  obtain ⟨hclosed, hts⟩ := hs
  have hopen : scan .gap "(".toList = ([.opening], .gap) := rfl
  have hclose : Mode.start ')' = ([.closing], .gap) := rfl
  have hbreak : isBreak ')' = true := rfl
  rw [String.toList_append, String.toList_append, scan_append, scan_append, hopen]
  simp only [String.reduceToList, scan_cons, scan_nil]
  rw [Mode.step_of_isBreak hclosed hbreak, Mode.flush, hclose, ← hts]
  simp

/-! ### Quoted texts -/

theorem scan_inside_doubled (q : Quote) (cs ds rest : List Char) :
    scan (.inside q cs) (doubled q.char ds ++ rest) = scan (.inside q (cs ++ ds)) rest := by
  induction ds generalizing cs with
  | nil => simp
  | cons d ds ih =>
    by_cases hd : d = q.char
    · -- the first of the two quotes may end the text, the second one takes that back
      subst hd
      rw [doubled_cons_self, List.cons_append, List.cons_append, scan_cons, scan_cons]
      simp only [Mode.step, if_true]
      rw [ih]
      simp
    · rw [doubled_cons_of_ne hd, List.cons_append, scan_cons]
      simp only [Mode.step, if_neg hd]
      rw [ih]
      simp

/-- A text in quotes is one token, whatever it holds. -/
theorem tokenize_enquote (q : Quote) (s : String) :
    tokenize (enquote q.char s) = some [q.token s] := by
  have hstart : Mode.step .gap q.char = ([], .inside q []) := by cases q <;> rfl
  rw [tokenize_eq_some_iff, enquote, String.toList_ofList, List.cons_append, scan_cons, hstart,
    scan_inside_doubled, scan_cons]
  simp [Mode.step, Mode.isClosed, Mode.pending, String.ofList_toList]

/-- **A literal is one token, whatever it holds.** -/
theorem tokenize_quoteLiteral (s : String) : tokenize (quoteLiteral s) = some [.literal s] :=
  tokenize_enquote .single s

end DocSearch.Sql
