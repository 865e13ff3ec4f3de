import DocSearch.Json.Basic
import DocSearch.Sql.Dialect

/-!
# Mappings

The types that are declared for fields, for a whole index or for one type of its
documents.  A date histogram asks them how a field holds its instants.

## Main definitions

* `FieldType` — the types, `FieldType.ofName?`, `FieldType.timestampSource?`.
* `Mappings` — the declarations by scope, `Mappings.put`.
* `Mappings.fieldType?` — the type that a search uses.
* `Mappings.putProperties`, `Mappings.merge` — declare the properties of a mapping body.
* `Mappings.snapshot` — everything that is declared for an index.
-/

namespace DocSearch

/-- The type of a field. -/
inductive FieldType where
  /-- A date that is written out. -/
  | date
  /-- An integer. -/
  | long
  /-- A number. -/
  | double
  /-- A text. -/
  | text
  /-- A truth value. -/
  | boolean
  /-- An object. -/
  | object
  /-- An array of objects. -/
  | nested
  deriving DecidableEq, Repr

namespace FieldType

/-- The name of a type. -/
def name : FieldType → String
  | date => "date"
  | long => "long"
  | double => "double"
  | text => "text"
  | boolean => "boolean"
  | object => "object"
  | nested => "nested"

/-- All types. -/
def all : List FieldType := [date, long, double, text, boolean, object, nested]

/-- Other names of types. -/
def aliases : List (String × FieldType) :=
  [("integer", long), ("short", long), ("byte", long), ("float", double), ("half_float", double),
   ("scaled_float", double), ("keyword", text), ("string", text)]

/-- The type with exactly this name. -/
def ofOwnName? (s : String) : Option FieldType := all.find? fun t => t.name == s

/-- The type of a name or of another name. -/
def ofName? (s : String) : Option FieldType := (ofOwnName? s).or (aliases.lookup s)

@[simp] theorem ofOwnName?_name (t : FieldType) : ofOwnName? t.name = some t := by
  cases t <;> decide +kernel

/-- How a field of this type holds an instant, if it can. -/
def timestampSource? : FieldType → Option TimestampSource
  | date => some .formatted
  | long => some .epochMillis
  | double => some .epochMillis
  | _ => none

end FieldType

/-- The declarations of one scope. -/
abbrev FieldTypes := List (String × FieldType)

/-- Declared types by scope.  A scope is the name of an index, or the name of an
index, a slash and the name of a type. -/
structure Mappings where
  /-- The scopes, in the order of their first declaration. -/
  scopes : List (String × FieldTypes) := []
  deriving DecidableEq, Repr

/-- Why a mapping body is refused. -/
inductive MappingError where
  /-- It has no properties. -/
  | noProperties
  /-- The properties below a path are no object. -/
  | propertiesNotAnObject (path : String)
  /-- A property has no type. -/
  | noType (path : String)
  /-- A property has a type that is not known. -/
  | unknownType (declared path : String)
  deriving DecidableEq, Repr

/-- The wording of a cause. -/
def MappingError.message : MappingError → String
  | noProperties => "mapping body requires [properties]"
  | propertiesNotAnObject path => "[properties] under [" ++ path ++ "] must be an object"
  | noType path => "field [" ++ path ++ "] requires a [type]"
  | unknownType declared path => "unknown field type [" ++ declared ++ "] for [" ++ path ++ "]"

namespace Mappings

/-- No declarations. -/
def empty : Mappings := {}

/-- The scope of an index, or of one type of its documents. -/
def scopeKey (index : String) : Option String → String
  | some docType => index ++ "/" ++ docType
  | none => index

/-- The declarations of a scope. -/
def scope (m : Mappings) (key : String) : FieldTypes := (m.scopes.lookup key).getD []

/-- Declare the type of a field. -/
def put (m : Mappings) (index : String) (docType : Option String) (field : String)
    (type : FieldType) : Mappings :=
  let key := scopeKey index docType
  ⟨Members.put key (Members.put field type (m.scope key)) m.scopes⟩

/-- The type that a search over `indices` and `types` uses for a field: that of the
first index that declares it, where a declaration for one of the types comes before
one for the whole index. -/
def fieldType? (m : Mappings) (indices types : List String) (field : String) : Option FieldType :=
  indices.findSome? fun index =>
    (types.findSome? fun t => (m.scope (scopeKey index (some t))).lookup field).or
      ((m.scope index).lookup field)

/-- Whether a scope belongs to an index. -/
def belongsTo (index key : String) : Bool :=
  key == index || (index ++ "/").toList.isPrefixOf key.toList

/-- Everything that is declared for an index; of two declarations for a field, that
of the later scope. -/
def snapshot (m : Mappings) (index : String) : FieldTypes :=
  (m.scopes.filter fun (key, _) => belongsTo index key).foldl
    (fun acc (_, fields) => Members.putAll acc fields) []

/-- Declarations for whole indices. -/
def ofIndices (indices : List (String × FieldTypes)) : Mappings :=
  indices.foldl (fun m (index, fields) =>
    fields.foldl (fun m (field, type) => m.put index none field type) m) empty

/-! ### Mapping bodies -/

/-- The type that a property declares. -/
def declaredType (declared path : String) : Except MappingError FieldType :=
  match FieldType.ofName? declared with
  | some t => .ok t
  | none => .error (.unknownType declared path)

/-- The path of a property below another one. -/
def pathOf (parent name : String) : String :=
  if parent.isEmpty then name else parent ++ "." ++ name

/-- The declarations of one property, given those of its own properties if it has
any; a property with properties is an object unless it says otherwise. -/
def propertyTypes (path : String) (type : Option String)
    (inner : Option (Except MappingError FieldTypes)) : Except MappingError FieldTypes :=
  match inner, type with
  | some inner, _ => do
    let t ← declaredType (type.getD "object") path
    return (path, t) :: (← inner)
  | none, some declared => do return [(path, ← declaredType declared path)]
  | none, none => .error (.noType path)

mutual

/-- The declarations of the properties below a path. -/
def ofProperties (parent : String) : Json → Except MappingError FieldTypes
  | .obj ms => ofPropertyList parent ms
  | _ => .error (.propertiesNotAnObject parent)

/-- The declarations of several properties. -/
def ofPropertyList (parent : String) : List (String × Json) → Except MappingError FieldTypes
  | [] => .ok []
  | (name, spec) :: rest => do
    let own ← ofProperty (pathOf parent name) spec
    return own ++ (← ofPropertyList parent rest)

/-- The declarations of the property at a path. -/
def ofProperty (path : String) : Json → Except MappingError FieldTypes
  | .obj ms => propertyTypes path ((ms.lookup "type").bind Json.string?) (ofInner path ms)
  | _ => .error (.noType path)

/-- The declarations of the properties among the members of a property. -/
def ofInner (path : String) : List (String × Json) → Option (Except MappingError FieldTypes)
  | [] => none
  | (name, v) :: rest =>
    if name = "properties" then some (ofProperties path v) else ofInner path rest

end

/-- The declarations of a mapping body, a parent before its children. -/
def ofBody (body : Json) : Except MappingError FieldTypes :=
  match body.member? "properties" with
  | some properties => ofProperties "" properties
  | none => .error .noProperties

/-- Declare the properties of a mapping body; nothing is declared if it is refused.
The answer is how many there are. -/
def putProperties (m : Mappings) (index : String) (docType : Option String) (body : Json) :
    Except MappingError (Mappings × Nat) := do
  let fields ← ofBody body
  return (fields.foldl (fun m (field, type) => m.put index docType field type) m, fields.length)

/-- The same on declarations that change in place: they are written one after the other, and
what is written when something fails stays. -/
def merge (index : String) (docType : Option String) (body : Json) :
    ExceptT MappingError (StateM Mappings) Nat := do
  let fields ← ofBody body
  fields.forM fun (field, type) => modify fun m => m.put index docType field type
  return fields.length

/-- The answer to a mapping body, and the declarations behind it. -/
def merging (m : Mappings) (index : String) (docType : Option String) (body : Json) :
    Except MappingError Nat × Mappings := StateT.run (ExceptT.run (merge index docType body)) m

/-! ### Settings -/

/-- A type in the settings: its own name, alone or with `null`. -/
def settingType? : Json → Option FieldType
  | .str s => FieldType.ofOwnName? s
  | .obj [(s, .null)] => FieldType.ofOwnName? s
  | _ => none

/-- The types of the fields of an index in the settings. -/
def settingFields? : Json → Option FieldTypes
  | .obj ms => ms.mapM fun (field, v) => (settingType? v).map (field, ·)
  | _ => none

/-- The declarations in the settings, by index. -/
def settings? : Json → Option (List (String × FieldTypes))
  | .obj ms => ms.mapM fun (index, v) => (settingFields? v).map (index, ·)
  | _ => none

end Mappings

end DocSearch
