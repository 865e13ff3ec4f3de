import DocSearch.Text

/-!
# Names of fields

A field is named by the path to it: the names of the members to go through, with
dots between them.  The names are kept printable and free of double quotes,
because they are written into statements.

## Main definitions

* `FieldNameError` — why a name is refused.
* `Field.segments` — the members on the path.
* `Field.checkName` — refuse what cannot be addressed.
-/

namespace DocSearch

/-- Why a name cannot be the name of a field. -/
inductive FieldNameError where
  /-- It is empty. -/
  | empty
  /-- It has nothing before, between or behind its dots somewhere. -/
  | emptySegment (field : String)
  /-- It holds a double quote or a control character. -/
  | forbiddenCharacter (field : String)
  deriving DecidableEq, Repr

/-- What is said about such a name. -/
def FieldNameError.message : FieldNameError → String
  | empty => "field name must not be empty"
  | emptySegment field => "field name [" ++ field ++ "] has an empty path segment"
  | forbiddenCharacter field => "field name [" ++ field ++ "] contains forbidden characters"

namespace Field

/-- The names on the path to a field. -/
def segments (field : String) : List String := Text.splitOn '.' field

/-- Refuse a name that cannot be addressed in every database. -/
def checkName (field : String) : Except FieldNameError Unit :=
  if field.isEmpty then .error .empty
  else if (segments field).any (·.isEmpty) then .error (.emptySegment field)
  else if field.toList.any fun c => c == '"' || Text.isControl c then
    .error (.forbiddenCharacter field)
  else .ok ()

/-- Whether a segment needs no quotes: ASCII letters, digits and underscores. -/
def isSimpleSegment (segment : String) : Bool :=
  segment.toList.all fun c => c.isAlphanum || c == '_'

/-- A segment, in double quotes unless it is simple. -/
def quotedSegment (segment : String) : String :=
  if isSimpleSegment segment then segment else "\"" ++ segment ++ "\""

end Field

end DocSearch
