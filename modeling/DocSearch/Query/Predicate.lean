import DocSearch.Json.Printer

/-!
# Predicates on documents

What a request asks of a document: comparisons of a field with values, matches of
the words of a text, and their boolean combinations.

## Main definitions

* `Scalar` — a string, number or truth value that a field is compared with.
* `TextQuery` — a text and how its words are to be found.
* `Predicate` — the predicates.
-/

namespace DocSearch

/-- A value that a field is compared with. -/
inductive Scalar where
  /-- A string. -/
  | text (s : String)
  /-- A number. -/
  | number (n : Number)
  /-- A truth value. -/
  | bool (b : Bool)
  deriving DecidableEq, Repr

namespace Scalar

/-- The scalar as a JSON value. -/
def toJson : Scalar → Json
  | text s => .str s
  | number n => .num n
  | bool b => .bool b

/-- The scalar of a JSON value; `null`, arrays and objects have none. -/
def ofJson? : Json → Option Scalar
  | .str s => some (.text s)
  | .num n => some (.number n)
  | .bool b => some (.bool b)
  | _ => none

/-- The text that the scalar is compared by: the characters of a string, the JSON
spelling of anything else. -/
def spelling : Scalar → String
  | text s => s
  | number n => n.print
  | bool b => if b then "true" else "false"

@[simp] theorem ofJson?_toJson (v : Scalar) : ofJson? v.toJson = some v := by
  cases v <;> rfl

end Scalar

/-- How the words of a text are combined. -/
inductive Operator where
  /-- All of them. -/
  | and
  /-- At least one of them. -/
  | or
  deriving DecidableEq, Repr

/-- What a text without words finds. -/
inductive ZeroTerms where
  /-- Nothing. -/
  | none
  /-- Everything. -/
  | all
  deriving DecidableEq, Repr

/-- What of a text is looked for. -/
inductive MatchMode where
  /-- Its words, each anywhere in the field. -/
  | words
  /-- The text as the whole field. -/
  | phrase
  /-- The text as the start of the field. -/
  | phrasePrefix
  deriving DecidableEq, Repr

/-- A text and how it is looked for. -/
structure TextQuery where
  /-- The text. -/
  text : String
  /-- How its words are combined. -/
  operator : Operator
  /-- What it finds if it has no words. -/
  zeroTerms : ZeroTerms
  /-- What of it is looked for. -/
  mode : MatchMode
  deriving DecidableEq, Repr

/-- A field and the weight that was asked for. -/
structure BoostedField where
  /-- The name of the field. -/
  name : String
  /-- The weight, if one was given. -/
  boost : Option Float
  deriving DecidableEq, Repr

/-- An order comparison. -/
inductive RangeOp where
  /-- Greater. -/
  | gt
  /-- Greater or equal. -/
  | gte
  /-- Less. -/
  | lt
  /-- Less or equal. -/
  | lte
  deriving DecidableEq, Repr

namespace RangeOp

/-- The comparison of a parameter name. -/
def ofKey? (key : String) : Option RangeOp :=
  if key = "gt" then some gt
  else if key = "gte" then some gte
  else if key = "lt" then some lt
  else if key = "lte" then some lte
  else none

/-- The sign of a comparison. -/
def sql : RangeOp → String
  | gt => ">"
  | gte => ">="
  | lt => "<"
  | lte => "<="

end RangeOp

/-- The four groups of a boolean combination. -/
structure BoolClauses (α : Type) where
  /-- What a document has to meet. -/
  must : List α := []
  /-- What it has to meet as well. -/
  filter : List α := []
  /-- What it must not meet. -/
  mustNot : List α := []
  /-- Of these it has to meet enough. -/
  should : List α := []
  /-- How many of them are enough, as it was written. -/
  minimumShouldMatch : Option String := none
  deriving Repr

/-- A predicate on documents. -/
inductive Predicate where
  /-- Every document. -/
  | matchAll
  /-- A field equals a value. -/
  | term (field : String) (value : Scalar) (boost : Option Float)
  /-- The document has a type. -/
  | docType (value : String) (boost : Option Float)
  /-- The document has one of the identifiers, and one of the types if any are given. -/
  | ids (types values : List String)
  /-- A text is found in a field. -/
  | fullText (field : String) (query : TextQuery) (boost : Option Float)
  /-- A text is found in some of several fields. -/
  | multiField (fields : List BoostedField) (query : TextQuery)
  /-- A boolean combination. -/
  | bool (clauses : BoolClauses Predicate)
  /-- A field equals one of several values. -/
  | terms (field : String) (values : List Scalar)
  /-- A field lies within bounds. -/
  | range (field : String) (bounds : List (RangeOp × Scalar))
  /-- A field has a value. -/
  | present (field : String)
  /-- A field starts with a text. -/
  | startsWith (field : String) (text : String)
  deriving Repr

end DocSearch
