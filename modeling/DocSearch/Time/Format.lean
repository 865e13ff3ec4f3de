import DocSearch.Time.Strftime

/-!
# Formats of bucket keys

A format is one of a few names or a pattern such as `yyyy-MM-dd HH:mm`, in which
a run of one letter is a field and quoted text stands for itself.  A pattern is
turned into format directives once, when it is read.

## Main definitions

* `DateFormat` — a pattern and how it renders an instant.
* `DateFormat.read` — the format of a pattern.
* `DateFormat.format` — the text of an instant.
-/

namespace DocSearch

/-- How a format renders an instant. -/
inductive Rendering where
  /-- The milliseconds as a number. -/
  | epochMillis
  /-- The whole seconds as a number. -/
  | epochSecond
  /-- By format directives. -/
  | directives (text : List Char)
  deriving DecidableEq, Repr

/-- A format for bucket keys. -/
structure DateFormat where
  /-- The pattern as it was written. -/
  pattern : String
  /-- How it renders an instant. -/
  rendering : Rendering
  deriving DecidableEq, Repr

/-- A letter of a pattern that is no field. -/
structure DateFormatError where
  /-- The letter. -/
  letter : Char
  /-- The pattern. -/
  pattern : String
  deriving DecidableEq, Repr

/-- What is said about a letter that is no field. -/
def DateFormatError.message (e : DateFormatError) : String :=
  "unsupported date pattern letter [" ++ e.letter.toString ++ "] in [" ++ e.pattern ++ "]"

namespace DateFormat

/-- A character that stands for itself, as format directives. -/
def escapeLiteral (c : Char) : List Char := if c = '%' then ['%', '%'] else [c]

/-- The directive for a run of `count` times the letter `c`. -/
def directive? (c : Char) (count : Nat) : Option String :=
  match c with
  | 'y' => if count = 2 then "%y" else "%Y"
  | 'M' =>
    if count = 1 then "%-m" else if count = 2 then "%m" else if count = 3 then "%b" else "%B"
  | 'd' => if count = 1 then "%-d" else "%d"
  | 'H' => if count = 1 then "%-H" else "%H"
  | 'h' => "%I"
  | 'm' => "%M"
  | 's' => "%S"
  | 'S' => "%3f"
  | 'a' => "%p"
  | 'E' => if count ≤ 3 then "%a" else "%A"
  | 'Z' => "%z"
  | 'X' => "%z"
  | _ => none

/-- Turn a pattern into format directives.  A quote starts text that stands for
itself up to the next quote or the end; two quotes in a row are one quote.  The
error is the first letter that is no field. -/
def translate : List Char → Except Char (List Char)
  | [] => .ok []
  | c :: cs =>
    if c = '\x27' then
      let quoted := cs.takeWhile (· ≠ '\x27')
      let text := if quoted.isEmpty then ['\x27'] else quoted.flatMap escapeLiteral
      (translate ((cs.dropWhile (· ≠ '\x27')).drop 1)).map (text ++ ·)
    else if c.isAlpha then
      match directive? c ((cs.takeWhile (· = c)).length + 1) with
      | none => .error c
      | some d => (translate (cs.dropWhile (· = c))).map (d.toList ++ ·)
    else (translate cs).map (escapeLiteral c ++ ·)
termination_by cs => cs.length
decreasing_by
  · have := (List.dropWhile_sublist (l := cs) (· ≠ '\x27')).length_le
    simp only [List.length_drop, List.length_cons]
    omega
  · have := (List.dropWhile_sublist (l := cs) (· = c)).length_le
    simp only [List.length_cons]
    omega
  · simp

/-- The format that a pattern names or spells. -/
def read (pattern : String) : Except DateFormatError DateFormat :=
  let directives (text : String) : Except DateFormatError DateFormat :=
    .ok ⟨pattern, .directives text.toList⟩
  if pattern = "epoch_millis" then .ok ⟨pattern, .epochMillis⟩
  else if pattern = "epoch_second" then .ok ⟨pattern, .epochSecond⟩
  else if pattern = "date_optional_time" ∨ pattern = "strict_date_optional_time"
      ∨ pattern = "date_time" then directives "%Y-%m-%dT%H:%M:%S%.3fZ"
  else if pattern = "date" ∨ pattern = "strict_date" then directives "%Y-%m-%d"
  else if pattern = "basic_date" then directives "%Y%m%d"
  else
    match translate pattern.toList with
    | .ok text => .ok ⟨pattern, .directives text⟩
    | .error letter => .error ⟨letter, pattern⟩

/-- The text of an instant.  One outside the supported range is written as its
number of milliseconds. -/
def format (f : DateFormat) (millis : Int) : String :=
  match f.rendering with
  | .epochMillis => toString millis
  | .epochSecond => toString (millis / 1000)
  | .directives text =>
    if Instant.inRange millis then String.ofList (formatInstant (formatItems text) millis)
    else toString millis

end DateFormat

end DocSearch
