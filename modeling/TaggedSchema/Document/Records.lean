import TaggedSchema.Document.Basic
import TaggedSchema.Universe.Basic
import TaggedSchema.Violation

/-!
# Writing definitions and violations

The records that `Document.Definitions` reads, with their members in the order of declaration.
-/

namespace TaggedSchema

open Document

namespace Document

def texts (items : List String) : Document :=
  list (items.map text)

/-- A member that is left out when there is nothing to write. -/
def optionalMember (name : String) (content : Option Document) : List (String × Document) :=
  match content with
  | some document => [(name, document)]
  | none => []

/-- A member that is left out when its list is empty. -/
def listMember (name : String) (items : List Document) : List (String × Document) :=
  if items.isEmpty then [] else [(name, list items)]

end Document

def Violation.toDocument (violation : Violation) : Document :=
  table ([("path", text violation.path.toText), ("kind", text violation.kind.name)] ++
    optionalMember "bad_value" (violation.badValue.map ofValue) ++
    [("detail", text violation.detail), ("origin", text violation.origin),
      ("covered_by_declarative", bool violation.covered),
      ("declarative_native", bool violation.native)])

def violationsDocument (violations : List Violation) : Document :=
  list (violations.map Violation.toDocument)

def FieldDef.toDocument (field : FieldDef) : Document :=
  table ([("name", text field.name)] ++
    optionalMember "json_name" (field.givenJsonName.map text) ++
    [("type", text field.type.toText), ("tags", texts field.tags)])

def ConstantDef.toDocument (constant : ConstantDef) : Document :=
  table [("name", text constant.name), ("value", text constant.value),
    ("tags", texts constant.tags)]

def TypeDef.Body.entries : TypeDef.Body → List (String × Document)
  | .struct fields => [("kind", text "struct"), ("fields", list (fields.map FieldDef.toDocument))]
  | .alias underlying constants =>
    [("kind", text "alias"), ("underlying", text underlying.toText),
      ("constants", list (constants.map ConstantDef.toDocument))]

def TypeDef.toDocument (type : TypeDef) : Document :=
  table ([("name", text type.name), ("tags", texts type.tags)] ++ type.body.entries)

def Universe.toDocument (types : Universe) : Document :=
  list (types.entries.map TypeDef.toDocument)

end TaggedSchema
