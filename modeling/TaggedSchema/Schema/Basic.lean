import TaggedSchema.Schema.Plan

/-!
# Schemas

What definitions are compiled into: rules, plans, and the unions that the fields of a struct form.
-/

namespace TaggedSchema

/-- A member of a union: a field, or an item of a list field. -/
structure UnionMember where
  /-- The value by which the discriminator chooses the member. -/
  name : String
  /-- The name of the field in instances. -/
  field : String
  selector : Option ItemSelector

/-- Fields of one struct of which only some may be set together. -/
structure UnionGroup where
  /-- Empty for the union without a name. -/
  name : String
  /-- The field that names the member to be set. -/
  discriminator : Option String
  members : List UnionMember

structure CompiledField where
  name : String
  jsonName : String
  rules : List Rule
  plan : Plan
  /-- Only rules validate the field. -/
  native : Bool
  /-- The value is not looked into. -/
  isOpaque : Bool

structure CompiledStruct where
  fields : List CompiledField
  unions : List UnionGroup
  /-- Groups of which no member has to be set. -/
  zeroOrOne : List UnionGroup

/-- The first field with this name in instances. -/
def CompiledStruct.field? (body : CompiledStruct) (jsonName : String) : Option CompiledField :=
  body.fields.find? fun field => field.jsonName == jsonName

inductive CompiledType.Body where
  | struct (body : CompiledStruct)
  | alias (plan : Plan)

structure CompiledType where
  name : String
  /-- The rules that apply wherever a value of the type stands. -/
  rules : List Rule
  body : CompiledType.Body

abbrev Schema := Catalog CompiledType CompiledType.name

/-- The body of the struct with this name. -/
def Schema.struct? (schema : Schema) (name : String) : Option CompiledStruct := do
  let type ← schema.get? name
  match type.body with
  | .struct body => some body
  | .alias _ => none

end TaggedSchema
