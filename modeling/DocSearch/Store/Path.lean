import DocSearch.Json.Basic
import DocSearch.Decimal.Numeral
import DocSearch.Store.MemberName

/-!
# Paths into a document

A path starts with a dollar sign.  Each step behind it is a point and the name of a
member, bare or in double quotes, or the place of an element in brackets, counted from
the start or from the end:

```text
$.a."b c"[0][#-1]
```

What cannot be read as a step is a failure only when the way leads there.  A place in
brackets is not looked at unless the value is an array.

## Main definitions

* `PathStep`, `pathSteps` — the steps of a path.
* `followPath` — the value that a path leads to, if there is one.
-/

namespace DocSearch

/-! ### Steps -/

/-- A step of a path. -/
inductive PathStep where
  /-- Go to the member of an object. -/
  | member (name : List Nat)
  /-- Go to an element of an array, counted from the start. -/
  | element (index : Nat)
  /-- Go to an element of an array, counted from behind its end. -/
  | fromEnd (count : Nat)
  /-- What is written here is no step. -/
  | unreadable
  /-- What is written in brackets is no place.  As far as it can be read, it counts
  some elements from behind the end. -/
  | unreadablePlace (count : Nat)
  deriving DecidableEq, Repr

/-- The characters up to the closing quote, and the rest behind it; a backslash and
the character behind it stay together. -/
def takeQuotedName : List Char → Option (List Char × List Char)
  | [] => none
  | '"' :: rest => some ([], rest)
  | '\\' :: c :: rest =>
    (takeQuotedName rest).map fun (name, rest) => ('\\' :: c :: name, rest)
  | c :: rest => (takeQuotedName rest).map fun (name, rest) => (c :: name, rest)

theorem length_of_takeQuotedName {cs name rest : List Char}
    (h : takeQuotedName cs = some (name, rest)) : rest.length < cs.length := by
  fun_induction takeQuotedName cs generalizing name with
  | case1 => simp at h
  | case2 => simp at h; simp [h.2]
  | case3 c cs ih =>
    obtain ⟨⟨n, r⟩, hr, he⟩ := Option.map_eq_some_iff.1 h
    simp only [Prod.mk.injEq] at he
    obtain ⟨_, rfl⟩ := he
    have := ih hr
    simp only [List.length_cons]
    omega
  | case4 c cs _ _ ih =>
    obtain ⟨⟨n, r⟩, hr, he⟩ := Option.map_eq_some_iff.1 h
    simp only [Prod.mk.injEq] at he
    obtain ⟨_, rfl⟩ := he
    have := ih hr
    simp only [List.length_cons]
    omega

/-- Whether a character ends a bare name. -/
def endsBareName (c : Char) : Bool := c == '.' || c == '['

/-- The number that digits stand for; places are counted with 32 bits. -/
def placeOf (digits : List Char) : Nat := digitsValue digits % UInt32.size

theorem length_of_dropWhile {p : Char → Bool} {cs : List Char} {c : Char} {rest : List Char}
    (h : cs.dropWhile p = c :: rest) : rest.length < cs.length := by
  have hle := (List.dropWhile_suffix p (l := cs)).length_le
  rw [h, List.length_cons] at hle
  omega

/-- The steps behind the dollar sign. -/
def readSteps : List Char → List PathStep
  | [] => []
  | '.' :: '"' :: cs =>
    match h : takeQuotedName cs with
    | none => [.unreadable]
    | some (name, rest) =>
      have := length_of_takeQuotedName h
      .member (unescapeName (Text.utf8 (String.ofList name))) :: readSteps rest
  | '.' :: cs =>
    let name := cs.takeWhile (!endsBareName ·)
    if name.isEmpty then [.unreadable]
    else
      have := (List.dropWhile_suffix (fun c => !endsBareName c) (l := cs)).length_le
      .member (bareName (String.ofList name)) :: readSteps (cs.dropWhile (!endsBareName ·))
  | '[' :: '#' :: ']' :: cs => .fromEnd 0 :: readSteps cs
  | '[' :: '#' :: '-' :: cs =>
    let digits := cs.takeWhile Char.isDigit
    if digits.isEmpty then [.unreadablePlace 0]
    else
      match h : cs.dropWhile Char.isDigit with
      | ']' :: rest =>
        have := length_of_dropWhile h
        .fromEnd (placeOf digits) :: readSteps rest
      | _ => [.unreadablePlace (placeOf digits)]
  | '[' :: cs =>
    let digits := cs.takeWhile Char.isDigit
    if digits.isEmpty then [.unreadablePlace 0]
    else
      match h : cs.dropWhile Char.isDigit with
      | ']' :: rest =>
        have := length_of_dropWhile h
        .element (placeOf digits) :: readSteps rest
      | _ => [.unreadablePlace 0]
  | _ => [.unreadable]
  termination_by cs => cs.length
  decreasing_by all_goals simp_wf; omega

/-- The steps of a path. -/
def pathSteps (path : String) : List PathStep := readSteps (path.toList.drop 1)

/-! ### Values -/

/-- Why a path leads nowhere. -/
inductive PathFailure where
  /-- A step that was reached cannot be read. -/
  | unreadable
  deriving DecidableEq, Repr

/-- The value that steps lead to, if there is one. -/
def followSteps : List PathStep → Json → Except PathFailure (Option Json)
  | [], v => .ok (some v)
  | .unreadable :: _, _ => .error .unreadable
  | .member step :: rest, .obj members =>
    match members.find? fun (name, _) => sameName step name with
    | some (_, v) => followSteps rest v
    | none => .ok none
  | .element index :: rest, .arr items =>
    match items[index]? with
    | some v => followSteps rest v
    | none => .ok none
  | .fromEnd count :: rest, .arr items =>
    match if count ≤ items.length then items[items.length - count]? else none with
    | some v => followSteps rest v
    | none => .ok none
  | .unreadablePlace count :: _, .arr items =>
    if items.length < count then .ok none else .error .unreadable
  | _ :: _, _ => .ok none

/-- The value that a path leads to, if there is one. -/
def followPath (path : String) (v : Json) : Except PathFailure (Option Json) :=
  followSteps (pathSteps path) v

end DocSearch
