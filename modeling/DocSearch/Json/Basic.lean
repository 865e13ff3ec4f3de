import DocSearch.Members

/-!
# JSON values

Documents, queries and answers are JSON values whose objects remember the order
in which their members were first written.

## Main definitions

* `Number` — an integer of at most 64 bits, or a double.
* `Json` — the six kinds of value.
* `Json.member?` — the value of a member.
-/

namespace DocSearch

/-- A number of a JSON document. -/
inductive Number where
  /-- A number spelt as an integer that fits into 64 bits, with or without sign. -/
  | int (n : Int)
  /-- Any other number; it is always finite. -/
  | real (x : Float)
  deriving DecidableEq, Repr

/-- A JSON value. -/
inductive Json where
  /-- The word `null`. -/
  | null
  /-- The word `true` or `false`. -/
  | bool (b : Bool)
  /-- A number. -/
  | num (n : Number)
  /-- A string. -/
  | str (s : String)
  /-- An array. -/
  | arr (items : List Json)
  /-- An object: its members in the order of their first appearance. -/
  | obj (members : List (String × Json))
  deriving BEq, Repr, Inhabited

namespace Json

/-- The integer `n`. -/
def ofInt (n : Int) : Json := .num (.int n)

/-- The array of the strings `xs`. -/
def strings (xs : List String) : Json := .arr (xs.map .str)

/-- The member `name` of an object. -/
def member? (name : String) : Json → Option Json
  | .obj members => members.lookup name
  | _ => none

/-- Whether a value is an object. -/
def isObject : Json → Bool
  | .obj _ => true
  | _ => false

/-- The characters of a string value. -/
def string? : Json → Option String
  | .str s => some s
  | _ => none

end Json

end DocSearch
