import TaggedSchema.Catalog
import TaggedSchema.Text.LowerCase
import TaggedSchema.TypeRef

/-!
# Type definitions

Structs and aliases with their tags as they were written. A universe holds definitions by name.
-/

namespace TaggedSchema

structure FieldDef where
  /-- The declared name. -/
  name : String
  /-- The name in instances, if it is not the one derived from the declared name. -/
  givenJsonName : Option String
  type : TypeRef
  tags : List String

/-- The declared name with its first character in lower case. -/
def derivedJsonName (name : String) : String :=
  match name.toList with
  | [] => ""
  | first :: rest => String.ofList (Text.lowerCase first ++ rest)

/-- The name used in instances and paths. -/
def FieldDef.jsonName (field : FieldDef) : String :=
  field.givenJsonName.getD (derivedJsonName field.name)

/-- A declared value of an enumeration. -/
structure ConstantDef where
  name : String
  value : String
  tags : List String

inductive TypeDef.Body where
  | struct (fields : List FieldDef)
  | alias (underlying : TypeRef) (constants : List ConstantDef)

structure TypeDef where
  name : String
  tags : List String
  body : TypeDef.Body

namespace TypeDef

def fields (type : TypeDef) : List FieldDef :=
  match type.body with
  | .struct fields => fields
  | .alias .. => []

def constants (type : TypeDef) : List ConstantDef :=
  match type.body with
  | .struct _ => []
  | .alias _ constants => constants

def isAlias (type : TypeDef) : Bool :=
  match type.body with
  | .struct _ => false
  | .alias .. => true

/-- The first field with this name in instances. -/
def field? (type : TypeDef) (jsonName : String) : Option FieldDef :=
  type.fields.find? fun field => field.jsonName == jsonName

end TypeDef

/-- All definitions, by name. -/
abbrev Universe := Catalog TypeDef TypeDef.name

end TaggedSchema
