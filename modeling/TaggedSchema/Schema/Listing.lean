import TaggedSchema.Schema.Basic

/-!
# Listing a schema

A plain listing of types, fields and unions with the tags of their rules.
-/

namespace TaggedSchema

/-- The tags of all rules behind a label; nothing if there are none. -/
def rulesLine (label : String) (rules : List Rule) : List String :=
  if rules.isEmpty then [] else [label ++ ": " ++ String.intercalate " " (rules.map Rule.tag)]

def groupLine (label : String) (group : UnionGroup) : String :=
  "  " ++ label ++ " " ++ Text.quoted group.name ++ ": " ++
    String.intercalate ", " (group.members.map UnionMember.name)

def CompiledStruct.lines (body : CompiledStruct) : List String :=
  body.fields.flatMap (fun field => rulesLine ("  " ++ field.jsonName) field.rules) ++
    body.unions.map (groupLine "union") ++ body.zeroOrOne.map (groupLine "zeroOrOneOf")

def CompiledType.lines (type : CompiledType) : List String :=
  let body := match type.body with
    | .struct body => body.lines
    | .alias _ => []
  type.name :: rulesLine "  (type)" type.rules ++ body

/-- The listing of all types in name order, each line with its end. -/
def Schema.listing (schema : Schema) : String :=
  String.join ((schema.entries.flatMap CompiledType.lines).map (· ++ "\n"))

end TaggedSchema
