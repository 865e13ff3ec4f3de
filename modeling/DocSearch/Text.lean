/-!
# Character classes and the cuts made with them

Texts are cut and compared with three classes of characters: the blanks of the
Unicode property `White_Space`, the control characters of the general category
`Cc`, and the ASCII letters.  The cuts are functions on lists of characters, so
that their laws follow by induction; a `String` is opened with `toList` and
closed with `String.ofList`.

## Main definitions

* `isBlank`, `isControl` — the two Unicode classes.
* `utf8` — the bytes of a text.
* `asciiLower` — lower case of the ASCII letters, nothing else.
* `splitWhere p` — the pieces between the characters that satisfy `p`; there is
  always at least one.
* `words` — the maximal runs without a blank.
* `trim` — a text without its leading and trailing blanks.
-/

namespace DocSearch.Text

/-- The characters of the Unicode property `White_Space`. -/
def isBlank (c : Char) : Bool :=
  let n := c.toNat
  (9 ≤ n && n ≤ 13) || n == 0x20 || n == 0x85 || n == 0xA0 || n == 0x1680
    || (0x2000 ≤ n && n ≤ 0x200A) || n == 0x2028 || n == 0x2029 || n == 0x202F
    || n == 0x205F || n == 0x3000

/-- The characters of the Unicode general category `Cc`. -/
def isControl (c : Char) : Bool :=
  c.toNat < 0x20 || (0x7F ≤ c.toNat && c.toNat ≤ 0x9F)

/-- The bytes of a text in UTF-8. -/
def utf8 (s : String) : List UInt8 := s.toUTF8.toList

/-- Lower case of the ASCII letters; every other character stays. -/
def asciiLower (s : String) : String :=
  String.ofList (s.toList.map Char.toLower)

/-- The pieces of `cs` between the characters that satisfy `p`.  There is one
piece more than there are such characters. -/
def splitWhere (p : Char → Bool) : List Char → List (List Char)
  | [] => [[]]
  | c :: cs =>
    if p c then [] :: splitWhere p cs
    else match splitWhere p cs with
      | [] => [[c]]
      | piece :: pieces => (c :: piece) :: pieces

@[simp] theorem splitWhere_nil (p : Char → Bool) : splitWhere p [] = [[]] := rfl

theorem splitWhere_ne_nil (p : Char → Bool) (cs : List Char) : splitWhere p cs ≠ [] := by
  cases cs with
  | nil => simp
  | cons c cs =>
    simp only [splitWhere]
    split
    · simp
    · split <;> simp

/-- The pieces of `s` between the occurrences of `sep`. -/
def splitOn (sep : Char) (s : String) : List String :=
  (splitWhere (· == sep) s.toList).map String.ofList

/-- The maximal runs of characters that are not blank. -/
def words (s : String) : List String :=
  ((splitWhere isBlank s.toList).filter (!·.isEmpty)).map String.ofList

/-- A text without its leading and trailing blanks. -/
def trim (s : String) : String :=
  String.ofList ((s.toList.dropWhile isBlank).reverse.dropWhile isBlank).reverse

/-- Whether `s` consists of blanks only. -/
def isAllBlank (s : String) : Bool :=
  s.toList.all isBlank

/-- The texts of `parts` with `sep` between neighbours. -/
def joinWith (sep : String) : List String → String
  | [] => ""
  | [s] => s
  | s :: t :: rest => s ++ sep ++ joinWith sep (t :: rest)

@[simp] theorem joinWith_nil (sep : String) : joinWith sep [] = "" := rfl

@[simp] theorem joinWith_singleton (sep s : String) : joinWith sep [s] = s := rfl

@[simp] theorem joinWith_cons_cons (sep s t : String) (rest : List String) :
    joinWith sep (s :: t :: rest) = s ++ sep ++ joinWith sep (t :: rest) := rfl

end DocSearch.Text
