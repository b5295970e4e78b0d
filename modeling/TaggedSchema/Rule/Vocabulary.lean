import TaggedSchema.Tag.Basic

/-!
# The words of tags

The names of tags, where each may be attached, and the words that stand for formats, update
restrictions, list types and uniqueness modes.
-/

namespace TaggedSchema

/-- How settled a kind of rule is. -/
inductive Stability where
  | alpha
  | beta
  | stable
  deriving DecidableEq

def Stability.name : Stability → String
  | alpha => "alpha"
  | beta => "beta"
  | stable => "stable"

/-- The string formats. -/
inductive Format where
  | ip
  | uuid
  | shortName
  | longName
  | labelKey
  | labelValue
  deriving DecidableEq

namespace Format

def name : Format → String
  | ip => "k8s-ip"
  | uuid => "k8s-uuid"
  | shortName => "k8s-short-name"
  | longName => "k8s-long-name"
  | labelKey => "k8s-label-key"
  | labelValue => "k8s-label-value"

def all : List Format := [ip, uuid, shortName, longName, labelKey, labelValue]

end Format

/-- The ways in which a value may not change. -/
inductive Restriction where
  /-- An unset value stays unset. -/
  | noSet
  /-- A set value stays set. -/
  | noUnset
  /-- A set value does not become another set value. -/
  | noModify
  deriving DecidableEq

namespace Restriction

def name : Restriction → String
  | noSet => "NoSet"
  | noUnset => "NoUnset"
  | noModify => "NoModify"

def all : List Restriction := [noSet, noUnset, noModify]

end Restriction

inductive ListType where
  | atomic
  | set
  | map
  deriving DecidableEq

namespace ListType

def name : ListType → String
  | atomic => "atomic"
  | set => "set"
  | map => "map"

def all : List ListType := [atomic, set, map]

end ListType

inductive UniqueMode where
  | set
  | map
  deriving DecidableEq

namespace UniqueMode

def name : UniqueMode → String
  | set => "set"
  | map => "map"

def all : List UniqueMode := [set, map]

end UniqueMode

/-- A closed list of words with what each of them stands for. -/
structure WordList (α : Type) where
  /-- What the words are, as it is said of a word that is none of them. -/
  noun : String
  choices : List α
  name : α → String

namespace WordList

def find? {α : Type} (words : WordList α) (word : String) : Option α :=
  words.choices.find? fun choice => words.name choice == word

/-- What is said of a word that is not in the list. -/
def unknown {α : Type} (words : WordList α) (word : String) : String :=
  s!"unknown {words.noun} '{word}'"

end WordList

def Format.words : WordList Format := ⟨"format", all, name⟩

def Restriction.words : WordList Restriction := ⟨"update constraint", all, name⟩

def ListType.words : WordList ListType := ⟨"list type", all, name⟩

def UniqueMode.words : WordList UniqueMode := ⟨"uniqueness mode", all, name⟩

/-- The tags that are rules by themselves. -/
inductive SimpleTag where
  | required
  | optional
  | forbidden
  | immutable
  | update
  | minimum
  | maxLength
  | maxItems
  | maxProperties
  | format
  | enum
  | enumExclude
  | unique
  | listType
  | listMapKey
  | customUnique
  | unionMember
  | unionDiscriminator
  | zeroOrOneOfMember
  | neq
  | opaqueType
  | declarativeValidationNative
  deriving DecidableEq

/-- The tags that are known. All but the simple ones say where or when the tag in them applies. -/
inductive Directive where
  | simple (tag : SimpleTag)
  | item
  | subfield
  | eachVal
  | eachKey
  | conditional (polarity : Bool)
  deriving DecidableEq

namespace SimpleTag

def name : SimpleTag → String
  | required => "required"
  | optional => "optional"
  | forbidden => "forbidden"
  | immutable => "immutable"
  | update => "update"
  | minimum => "minimum"
  | maxLength => "maxLength"
  | maxItems => "maxItems"
  | maxProperties => "maxProperties"
  | format => "format"
  | enum => "enum"
  | enumExclude => "enumExclude"
  | unique => "unique"
  | listType => "listType"
  | listMapKey => "listMapKey"
  | customUnique => "customUnique"
  | unionMember => "unionMember"
  | unionDiscriminator => "unionDiscriminator"
  | zeroOrOneOfMember => "zeroOrOneOfMember"
  | neq => "neq"
  | opaqueType => "opaqueType"
  | declarativeValidationNative => "declarativeValidationNative"

def all : List SimpleTag :=
  [required, optional, forbidden, immutable, update, minimum, maxLength, maxItems, maxProperties,
    format, enum, enumExclude, unique, listType, listMapKey, customUnique, unionMember,
    unionDiscriminator, zeroOrOneOfMember, neq, opaqueType, declarativeValidationNative]

def scopes : SimpleTag → List Scope
  | required | optional | forbidden | opaqueType | declarativeValidationNative => [.field]
  | immutable | update => [.field, .listValue, .mapValue]
  | minimum | maxLength | format | neq => [.field, .type, .listValue, .mapKey, .mapValue]
  | maxItems | maxProperties | listType | listMapKey | unique | customUnique =>
    [.field, .type, .listValue, .mapValue]
  | enum => [.type]
  | enumExclude => [.constant]
  | unionMember | unionDiscriminator | zeroOrOneOfMember => [.field, .listValue]

/-- Whether the tag shapes what is compiled, and so may not depend on gates. -/
def isUnconditional : SimpleTag → Bool
  | listType | listMapKey | unique | customUnique | unionMember | unionDiscriminator
  | zeroOrOneOfMember | opaqueType | declarativeValidationNative | enum => true
  | _ => false

end SimpleTag

namespace Directive

def name : Directive → String
  | simple tag => tag.name
  | item => "item"
  | subfield => "subfield"
  | eachVal => "eachVal"
  | eachKey => "eachKey"
  | conditional true => "ifEnabled"
  | conditional false => "ifDisabled"

def all : List Directive :=
  SimpleTag.all.map simple ++
    [item, subfield, eachVal, eachKey, conditional true, conditional false]

def ofName? (name : String) : Option Directive :=
  all.find? fun directive => directive.name == name

/-- Where a tag may be attached. -/
def scopes : Directive → List Scope
  | simple tag => tag.scopes
  | item | subfield | eachVal | eachKey => [.field, .type, .listValue, .mapValue]
  | conditional _ => [.field, .type, .listValue, .mapKey, .mapValue, .constant]

def isUnconditional : Directive → Bool
  | simple tag => tag.isUnconditional
  | _ => false

end Directive

end TaggedSchema
