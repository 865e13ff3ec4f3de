import DocSearch.Proofs.Steps
import DocSearch.Time.Format
import Mathlib.Tactic.Common

/-!
# The grammar of format directives

A percent sign in a format starts a directive: a letter of a table, for the letters that
write a number also behind a character for the padding, or one of a few longer forms.  A
percent sign that starts none is an error, and an instant cannot be written by a format with
an error in it.

Bucket keys use a few of the directives only.  A text that is put together from these and
from characters that stand for themselves is read as just these parts, whatever stands next
to what.

## Main definitions

* `specifiers`, `strftimeItems` — all directives, and a format as it is read with them.
* `display?` — the text of an instant, if it can be written.
* `Directive.specifier` — how the directives of bucket keys are spelt.
* `DateFormat.Spells` — a text is put together from parts.

## Main results

* `DateFormat.Spells.formatItems_eq`, `DateFormat.Spells.strftimeItems_eq` — **such a text is
  read as its parts**.
* `DateFormat.Spells.display?_eq` — an instant can be written by such a text.
-/

namespace DocSearch

open DateFormat

/-! ### All directives -/

/-- The letters of the directives that write one number. -/
def numberLetters : List Char := "CGHIMSUVWYdefgjklmqsuwy".toList

/-- The letters of the directives that write anything else. -/
def otherLetters : List Char := "+ABDFPRTXZabchnprtvxz".toList

/-- The directives that are longer than a letter: fractions of a second and offsets. -/
def longSpecifiers : List String :=
  [".f", ".3f", ".6f", ".9f", "3f", "6f", "9f", ":z", "::z", ":::z", "#z"]

/-- All directives, without the percent sign.  None of them starts another. -/
def specifiers : List (List Char) :=
  (numberLetters.flatMap fun c => [[c], ['-', c], ['_', c], ['0', c]]) ++
    otherLetters.map ([·]) ++ longSpecifiers.map (·.toList)

/-- A part of a format. -/
inductive StrftimeItem where
  /-- A directive. -/
  | specifier (text : List Char)
  /-- A character that stands for itself. -/
  | literal (c : Char)
  /-- A percent sign that starts no directive. -/
  | error
  deriving DecidableEq, Repr

/-- The parts of a format. -/
def strftimeItems : List Char → List StrftimeItem
  | [] => []
  | '%' :: '%' :: cs => .literal '%' :: strftimeItems cs
  | '%' :: cs =>
    match specifiers.find? (·.isPrefixOf cs) with
    | some s => .specifier s :: strftimeItems (cs.drop s.length)
    | none => .error :: strftimeItems cs
  | c :: cs => .literal c :: strftimeItems cs
  termination_by cs => cs.length
  decreasing_by all_goals simp; try omega

/-! ### The directives of bucket keys -/

/-- How a directive is spelt behind the percent sign. -/
def Directive.specifier : Directive → List Char
  | .year => ['Y']
  | .shortYear => ['y']
  | .month => ['m']
  | .bareMonth => ['-', 'm']
  | .monthLetters => ['b']
  | .monthName => ['B']
  | .day => ['d']
  | .bareDay => ['-', 'd']
  | .hour => ['H']
  | .bareHour => ['-', 'H']
  | .halfDayHour => ['I']
  | .minute => ['M']
  | .second => ['S']
  | .millis => ['3', 'f']
  | .pointMillis => ['.', '3', 'f']
  | .halfDay => ['p']
  | .weekdayLetters => ['a']
  | .weekday => ['A']
  | .zone => ['z']

/-- The directives of bucket keys. -/
def Directive.all : List Directive :=
  [.year, .shortYear, .month, .bareMonth, .monthLetters, .monthName, .day, .bareDay, .hour,
    .bareHour, .halfDayHour, .minute, .second, .millis, .pointMillis, .halfDay, .weekdayLetters,
    .weekday, .zone]

/-- The directive that is spelt so. -/
def Directive.ofSpecifier? (s : List Char) : Option Directive :=
  Directive.all.find? (·.specifier == s)

theorem Directive.ofSpecifier?_specifier (d : Directive) : ofSpecifier? d.specifier = some d := by
  cases d <;> decide

/-- The text of a part of a format, if an instant can be written by it.  How a directive of
bucket keys writes an instant is known; the other directives are not used. -/
def StrftimeItem.write? (millis : Int) : StrftimeItem → Option (List Char)
  | .specifier s => (Directive.ofSpecifier? s).map (·.write millis)
  | .literal c => some [c]
  | .error => none

/-- The text of an instant, if it can be written. -/
def display? (items : List StrftimeItem) (millis : Int) : Option (List Char) :=
  (items.mapM (StrftimeItem.write? millis)).map List.flatten

/-! ### What stands at the start of a text -/

/-- The directive at the start of a text is found, whatever follows. -/
theorem find?_specifiers (d : Directive) (rest : List Char) :
    specifiers.find? (·.isPrefixOf (d.specifier ++ rest)) = some d.specifier := by
  cases d <;> rfl

theorem strftimeItems_specifier (d : Directive) (rest : List Char) :
    strftimeItems ('%' :: (d.specifier ++ rest)) =
      .specifier d.specifier :: strftimeItems rest := by
  have hpercent : ∀ cs, d.specifier ++ rest ≠ '%' :: cs := by
    cases d <;> simp [Directive.specifier]
  rw [strftimeItems, find?_specifiers]
  · simp
  · exact hpercent

theorem formatItems_specifier (d : Directive) (rest : List Char) :
    formatItems ('%' :: (d.specifier ++ rest)) = .field d :: formatItems rest := by
  cases d <;> rfl

theorem strftimeItems_cons {c : Char} (hc : c ≠ '%') (cs : List Char) :
    strftimeItems (c :: cs) = .literal c :: strftimeItems cs := by
  rw [strftimeItems]
  · exact fun _ h => absurd h hc
  · exact fun h => hc h

theorem formatItems_cons {c : Char} (hc : c ≠ '%') (cs : List Char) :
    formatItems (c :: cs) = .literal c :: formatItems cs := by
  rw [formatItems, if_neg hc]
  all_goals grind

/-! ### Texts that are put together from parts -/

/-- A text is put together from directives of bucket keys and characters that stand for
themselves. -/
inductive DateFormat.Spells : List Char → List FormatItem → Prop where
  /-- Nothing. -/
  | nil : Spells [] []
  /-- A character in front. -/
  | literal (c : Char) {text : List Char} {items : List FormatItem} (h : Spells text items) :
    Spells (escapeLiteral c ++ text) (.literal c :: items)
  /-- A directive in front. -/
  | field (d : Directive) {text : List Char} {items : List FormatItem} (h : Spells text items) :
    Spells ('%' :: (d.specifier ++ text)) (.field d :: items)

/-- The same part as the whole grammar has it. -/
def FormatItem.toStrftime : FormatItem → StrftimeItem
  | .field d => .specifier d.specifier
  | .literal c => .literal c
  | .error => .error

namespace DateFormat.Spells

variable {s t : List Char} {is js : List FormatItem}

theorem append (hs : Spells s is) (ht : Spells t js) : Spells (s ++ t) (is ++ js) := by
  induction hs with
  | nil => exact ht
  | literal c _ ih => simpa using ih.literal c
  | field d _ ih => simpa using ih.field d

/-- Characters that stand for themselves. -/
theorem literals (cs : List Char) : Spells (cs.flatMap escapeLiteral) (cs.map .literal) := by
  induction cs with
  | nil => exact .nil
  | cons c cs ih => exact ih.literal c

theorem error_notMem (h : Spells s is) : .error ∉ is := by
  induction h with
  | nil => exact List.not_mem_nil
  | literal c _ ih => simpa using ih
  | field d _ ih => simpa using ih

/-- **A text is read as the parts that it is put together from.** -/
theorem formatItems_eq (h : Spells s is) : formatItems s = is := by
  induction h with
  | nil => rfl
  | literal c _ ih =>
    by_cases hc : c = '%'
    · subst hc
      exact congrArg _ ih
    · rw [escapeLiteral, if_neg hc, List.singleton_append, formatItems_cons hc, ih]
  | field d _ ih => rw [formatItems_specifier, ih]

/-- **So does the whole grammar.** -/
theorem strftimeItems_eq (h : Spells s is) : strftimeItems s = is.map (·.toStrftime) := by
  induction h with
  | nil => rw [strftimeItems, List.map_nil]
  | literal c _ ih =>
    by_cases hc : c = '%'
    · subst hc
      rw [escapeLiteral, if_pos rfl, List.cons_append, List.singleton_append, strftimeItems, ih]
      rfl
    · rw [escapeLiteral, if_neg hc, List.singleton_append, strftimeItems_cons hc, ih]
      rfl
  | field d _ ih =>
    rw [strftimeItems_specifier, ih]
    rfl

/-- **An instant can be written by such a text.** -/
theorem display?_eq (h : Spells s is) (millis : Int) :
    display? (strftimeItems s) millis = some (formatInstant is millis) := by
  have hparts : (strftimeItems s).mapM (StrftimeItem.write? millis) =
      some (is.map (·.write millis)) := by
    rw [h.strftimeItems_eq, Steps.mapM_eq_some, List.map_map, List.map_map]
    induction h with
    | nil => rfl
    | literal c _ ih => exact congrArg _ ih
    | field d _ ih =>
      rw [List.map_cons, ih, List.map_cons, Function.comp_apply, FormatItem.toStrftime,
        StrftimeItem.write?, Directive.ofSpecifier?_specifier]
      rfl
  rw [display?, hparts, formatInstant, List.flatMap]
  rfl

end DateFormat.Spells

end DocSearch
