import DocSearch.Digest
import Std.Data.HashSet

/-!
# Names of temporary tables

The temporary tables of a search are registered before they are created, so that
one whose creation fails half-way is dropped as well.  Their names are digests of
what they hold: each part is preceded by its length, which keeps lists of parts
apart.

## Main definitions

* `Arena` — the registered names, `Arena.register`, `Arena.pop?`.
* `tableDigestInput`, `tempTableName` — the name of a table from its parts.
-/

namespace DocSearch

/-- The registered names. -/
structure Arena where
  /-- The names, the newest first. -/
  names : List String := []
  /-- The same names, to look them up. -/
  registered : Std.HashSet String := ∅

namespace Arena

/-- No names. -/
def empty : Arena := {}

/-- How many names are registered. -/
def size (a : Arena) : Nat := a.names.length

/-- Register a name; the answer is whether it is new. -/
def register (name : String) (a : Arena) : Bool × Arena :=
  if a.registered.contains name then (false, a)
  else (true, ⟨name :: a.names, a.registered.insert name⟩)

/-- Take the newest name out. -/
def pop? (a : Arena) : Option (String × Arena) :=
  match a.names with
  | [] => none
  | name :: names => some (name, ⟨names, a.registered.erase name⟩)

end Arena

/-- A part of a name as it enters the digest: eight bytes for its length in bytes,
then its bytes. -/
def lengthPrefixed (part : String) : List UInt8 :=
  let bytes := Text.utf8 part
  Digest.littleEndian 8 bytes.length ++ bytes

/-- What the name of a table is a digest of. -/
def tableDigestInput (parts : List String) : List UInt8 := parts.flatMap lengthPrefixed

/-- How the names of all temporary tables start. -/
def tempTablePrefix : String := "sift_tmp_"

/-- The name of the temporary table that `parts` determine. -/
def tempTableName (parts : List String) : String :=
  tempTablePrefix ++ Digest.hex ((Digest.sha256 (tableDigestInput parts)).take 16)

end DocSearch
