import TaggedSchema.Document.Records
import TaggedSchema.Schema.Basic

/-!
# Writing rules and schemas

The records in which rules and compiled types are shown, with their members in the order of
declaration. Members that would be empty are left out.
-/

namespace TaggedSchema

open Document

def Condition.toDocument (condition : Condition) : Document :=
  let polarity := match condition.polarity with
    | .enabled => "enabled"
    | .disabled => "disabled"
  table [("gate", text condition.gate), ("polarity", text polarity)]

def ItemSelector.toDocument (selector : ItemSelector) : Document :=
  table [("keys", list (selector.keys.map fun (name, value) => list [text name, ofValue value]))]

namespace Document

/-- The kind of a rule, with what belongs to it. -/
def kind (name : String) (params : Option Document) : Document :=
  table ([("kind", text name)] ++ optionalMember "params" params)

/-- A rule record. -/
def rule (kind : Document) (stability : Stability) (condition : Option Condition)
    (children : List Document) (origin tag : String) : Document :=
  table ([("kind", kind), ("stability", text stability.name)] ++
    optionalMember "condition" (condition.map Condition.toDocument) ++
    listMember "children" children ++ [("origin", text origin), ("tag", text tag)])

def nat (n : Nat) : Document := number (.int n)

/-- A rule that holds `child` under a condition. -/
def conditional (condition : Condition) (child : Document) (origin tag : String) : Document :=
  rule (kind "conditionalWrapper" none) .beta (some condition) [child] origin tag

end Document

def Exclusion.toDocument : Exclusion → Document
  | always tag =>
    Document.rule (kind "enumExclude" none) Constraint.enumExclude.stability none []
      Constraint.enumExclude.origin tag
  | guarded condition inner tag =>
    conditional condition inner.toDocument Constraint.enumExclude.origin tag

def EnumMember.toDocument (member : EnumMember) : Document :=
  table ([("name", text member.name), ("value", text member.value)] ++
    listMember "exclusions" (member.exclusions.map Exclusion.toDocument))

def Constraint.toDocument : Constraint → Document
  | required => kind "required" none
  | optional => kind "optional" none
  | forbidden => kind "forbidden" none
  | immutable => kind "immutable" none
  | restriction value => kind "updateConstraint" (some (text value.name))
  | minimum bound => kind "minimum" (some (number (.int bound)))
  | maxLength limit => kind "maxLength" (some (nat limit))
  | maxItems limit => kind "maxItems" (some (nat limit))
  | maxProperties limit => kind "maxProperties" (some (nat limit))
  | format value => kind "format" (some (text value.name))
  | enumeration members => kind "enum" (some (list (members.map EnumMember.toDocument)))
  | enumExclude => kind "enumExclude" none
  | unique mode => kind "unique" (some (text mode.name))
  | listType value => kind "listIdentity" (some (text value.name))
  | listMapKey name => kind "listMapKey" (some (text name))
  | customUnique => kind "customUnique" none
  | unionMember union member =>
    kind "unionMember" (some (table [("union", text union), ("member", text member)]))
  | unionDiscriminator union =>
    kind "unionDiscriminator" (some (table [("union", text union)]))
  | zeroOrOneOf group member =>
    kind "zeroOrOneOfMember" (some (table [("group", text group), ("member", text member)]))
  | differs value => kind "neq" (some (ofValue value))
  | opaqueType => kind "opaque" none
  | native => kind "declarativeNative" none

def Place.toDocument : Place → Document
  | item selector => kind "item" (some selector.toDocument)
  | subfield jsonName => kind "subfield" (some (text jsonName))
  | eachVal => kind "eachVal" none
  | eachKey => kind "eachKey" none

def Rule.toDocument : Rule → Document
  | leaf constraint tag =>
    Document.rule constraint.toDocument constraint.stability none [] constraint.origin tag
  | within place inner tag =>
    Document.rule place.toDocument .stable none [inner.toDocument] place.tagName tag
  | guarded condition inner tag => conditional condition inner.toDocument inner.origin tag

def rulesDocument (rules : List Rule) : Document :=
  list (rules.map Rule.toDocument)

/-- The name of a domain in a plan. -/
def ScalarKind.planName : ScalarKind → String
  | .float => "float"
  | kind => kind.name

def ListSemantics.toDocument (semantics : ListSemantics) : Document :=
  table ([("list_type", text semantics.listType.name)] ++
    listMember "keys" (semantics.keys.map text) ++
    optionalMember "unique" (semantics.unique.map fun mode => text mode.name) ++
    [("custom_unique", bool semantics.customUnique)])

/-- The members of a plan's record. -/
def planEntries (access : Access) (type : String) (content : Document)
    (semantics : Option ListSemantics) : List (String × Document) :=
  [("shape", table [("type", text type), ("of", content)]), ("nullable", bool access.nullable)] ++
    listMember "named" (access.named.map text) ++
    optionalMember "list" (semantics.map ListSemantics.toDocument)

def Plan.entries : Plan → List (String × Document)
  | scalar access kind => planEntries access "scalar" (text kind.planName) none
  | list access element semantics =>
    planEntries access "slice" (table element.entries) (some semantics)
  | map access key value =>
    planEntries access "map" (table [("key", table key.entries), ("value", table value.entries)])
      none
  | struct access name => planEntries access "struct" (text name) none

def CompiledField.toDocument (field : CompiledField) : Document :=
  table [("name", text field.name), ("json_name", text field.jsonName),
    ("rules", rulesDocument field.rules), ("plan", table field.plan.entries),
    ("native", bool field.native), ("opaque", bool field.isOpaque)]

def UnionMember.toDocument (member : UnionMember) : Document :=
  table ([("name", text member.name), ("field", text member.field)] ++
    optionalMember "selector" (member.selector.map ItemSelector.toDocument))

def UnionGroup.toDocument (group : UnionGroup) : Document :=
  table ([("name", text group.name)] ++
    optionalMember "discriminator" (group.discriminator.map text) ++
    [("members", list (group.members.map UnionMember.toDocument))])

def CompiledType.Body.entries : CompiledType.Body → List (String × Document)
  | .struct body =>
    [("kind", text "struct"), ("fields", list (body.fields.map CompiledField.toDocument))] ++
      listMember "unions" (body.unions.map UnionGroup.toDocument) ++
      listMember "zero_or_one" (body.zeroOrOne.map UnionGroup.toDocument)
  | .alias plan => ("kind", text "alias") :: plan.entries

def CompiledType.toDocument (type : CompiledType) : Document :=
  table [("name", text type.name), ("rules", rulesDocument type.rules),
    ("body", table type.body.entries)]

/-- The types by name. -/
def Schema.toDocument (schema : Schema) : Document :=
  table (schema.entries.map fun type => (type.name, type.toDocument))

end TaggedSchema
