import TaggedSchema.Gate
import TaggedSchema.Rule.Vocabulary
import TaggedSchema.Value.Printer

/-!
# Rules

A rule is a constraint, a rule at another place than the value it is attached to, or a rule under
a condition on a feature gate.
-/

namespace TaggedSchema

/-- The key fields by which an item of a list is chosen, with their values. -/
structure ItemSelector where
  keys : List (String × Value)

/-- A value inside an identity: texts without quotes, other values as JSON. -/
def identityText (value : Value) : String :=
  match value with
  | .string text => text
  | other => other.toText

/-- The identity of a list element with these key fields. -/
def renderIdentity (keys : List (String × Value)) : String :=
  String.intercalate "," (keys.map fun (name, value) => name ++ "=" ++ identityText value)

namespace ItemSelector

/-- Whether an item has all the key fields with their values. -/
def selects (selector : ItemSelector) (item : Value) : Bool :=
  selector.keys.all fun (name, value) =>
    match item.member? name with
    | some found => found == value
    | none => false

def identity (selector : ItemSelector) : String :=
  renderIdentity selector.keys

end ItemSelector

/-- A tag that takes a constant out of its enumeration, under any number of conditions. -/
inductive Exclusion where
  | always (tag : String)
  | guarded (condition : Condition) (inner : Exclusion) (tag : String)

/-- A constant of an enumeration. -/
structure EnumMember where
  name : String
  value : String
  exclusions : List Exclusion

/-- What a rule asks of the value it applies to. Some constraints are not checked on values but
say how a list is identified or which fields form a union. -/
inductive Constraint where
  | required
  | optional
  | forbidden
  | immutable
  | restriction (kind : Restriction)
  | minimum (bound : Int)
  | maxLength (limit : Nat)
  | maxItems (limit : Nat)
  | maxProperties (limit : Nat)
  | format (kind : Format)
  | enumeration (members : List EnumMember)
  | enumExclude
  | unique (mode : UniqueMode)
  | listType (kind : ListType)
  | listMapKey (name : String)
  | customUnique
  | unionMember (union member : String)
  | unionDiscriminator (union : String)
  | zeroOrOneOf (group member : String)
  | differs (value : Value)
  /-- The value is not looked into. -/
  | opaqueType
  /-- Only rules validate the field. -/
  | native

namespace Constraint

/-- The tag by which the constraint is written. -/
def tag : Constraint → SimpleTag
  | required => .required
  | optional => .optional
  | forbidden => .forbidden
  | immutable => .immutable
  | restriction _ => .update
  | minimum _ => .minimum
  | maxLength _ => .maxLength
  | maxItems _ => .maxItems
  | maxProperties _ => .maxProperties
  | format _ => .format
  | enumeration _ => .enum
  | enumExclude => .enumExclude
  | unique _ => .unique
  | listType _ => .listType
  | listMapKey _ => .listMapKey
  | customUnique => .customUnique
  | unionMember .. => .unionMember
  | unionDiscriminator _ => .unionDiscriminator
  | zeroOrOneOf .. => .zeroOrOneOfMember
  | differs _ => .neq
  | opaqueType => .opaqueType
  | native => .declarativeValidationNative

/-- The origin of the violations of the constraint. -/
def origin : Constraint → String
  | format kind => "format=" ++ kind.name
  | enumExclude => "enum"
  | unionMember .. => "union"
  | unionDiscriminator _ => "union"
  | zeroOrOneOf .. => "zeroOrOneOf"
  | constraint => constraint.tag.name

def stability : Constraint → Stability
  | restriction _ | customUnique => .alpha
  | immutable | maxProperties _ | differs _ | enumExclude | unionMember .. | unionDiscriminator _
  | zeroOrOneOf .. => .beta
  | _ => .stable

/-- Whether the constraint is on the presence or the change of a value, and so decides whether the
value is looked at. -/
def isShortCircuit : Constraint → Bool
  | required | optional | forbidden | immutable | restriction _ => true
  | _ => false

/-- Whether the constraint says how elements of a list are identified. -/
def isListMetadata : Constraint → Bool
  | listType _ | listMapKey _ | unique _ | customUnique => true
  | _ => false

/-- Whether the constraint makes a field part of a union. -/
def isUnionMarker : Constraint → Bool
  | unionMember .. | unionDiscriminator _ | zeroOrOneOf .. => true
  | _ => false

/-- Whether the constraint is checked on the value alone. -/
def checksValue : Constraint → Bool
  | minimum _ | maxLength _ | maxItems _ | maxProperties _ | format _ | enumeration _
  | differs _ => true
  | _ => false

end Constraint

/-- Where the rule inside a composed rule applies. -/
inductive Place where
  | item (selector : ItemSelector)
  | subfield (jsonName : String)
  | eachVal
  | eachKey

namespace Place

def tagName : Place → String
  | item _ => "item"
  | subfield _ => "subfield"
  | eachVal => "eachVal"
  | eachKey => "eachKey"

def isEachVal : Place → Bool
  | eachVal => true
  | _ => false

def isEachKey : Place → Bool
  | eachKey => true
  | _ => false

end Place

/-- Every rule carries the text of the tag it was built from. -/
inductive Rule where
  | leaf (constraint : Constraint) (tag : String)
  | within (place : Place) (inner : Rule) (tag : String)
  | guarded (condition : Condition) (inner : Rule) (tag : String)

/-- The rule of an exclusion. -/
def Exclusion.toRule : Exclusion → Rule
  | always tag => .leaf .enumExclude tag
  | guarded condition inner tag => .guarded condition inner.toRule tag

/-- The rules of an exclusion from the outermost to the innermost. -/
def Exclusion.rules : Exclusion → List Rule
  | always tag => [.leaf .enumExclude tag]
  | guarded condition inner tag => .guarded condition inner.toRule tag :: inner.rules

def EnumMember.rules (member : EnumMember) : List Rule :=
  member.exclusions.flatMap Exclusion.rules

/-- The rules that a constraint contains. -/
def Constraint.rules : Constraint → List Rule
  | enumeration members => members.flatMap EnumMember.rules
  | _ => []

namespace Rule

def tag : Rule → String
  | leaf _ tag => tag
  | within _ _ tag => tag
  | guarded _ _ tag => tag

/-- The name of the tag by which the rule is written. One name stands for both conditions. -/
def tagName : Rule → String
  | leaf constraint _ => constraint.tag.name
  | within place _ _ => place.tagName
  | guarded .. => "ifEnabled"

/-- The origin of the rule's violations. A condition does not show. -/
def origin : Rule → String
  | leaf constraint _ => constraint.origin
  | within place _ _ => place.tagName
  | guarded _ inner _ => inner.origin

def stability : Rule → Stability
  | leaf constraint _ => constraint.stability
  | within .. => .stable
  | guarded .. => .beta

def isConditional : Rule → Bool
  | guarded .. => true
  | _ => false

/-- Whether the rule holds exactly one other rule. -/
def isComposed : Rule → Bool
  | leaf .. => false
  | _ => true

def inner? : Rule → Option Rule
  | leaf .. => none
  | within _ inner _ => some inner
  | guarded _ inner _ => some inner

def constraint? : Rule → Option Constraint
  | leaf constraint _ => some constraint
  | _ => none

/-- Whether the rule is a constraint that satisfies `p`, under no condition. -/
def asks (p : Constraint → Bool) : Rule → Bool
  | leaf constraint _ => p constraint
  | _ => false

/-- The rule under all conditions in front of it. -/
def innermost : Rule → Rule
  | guarded _ inner _ => inner.innermost
  | rule => rule

/-- The rule and all rules in it, from the outermost to the innermost. -/
def all : Rule → List Rule
  | leaf constraint tag => leaf constraint tag :: constraint.rules
  | within place inner tag => within place inner tag :: inner.all
  | guarded condition inner tag => guarded condition inner tag :: inner.all

end Rule

/-- Whether one of the rules is a constraint under no condition that satisfies `p`. -/
def hasConstraint (rules : List Rule) (p : Constraint → Bool) : Bool :=
  rules.any (Rule.asks p)

end TaggedSchema
