import TaggedSchema.Rule.Vocabulary
import TaggedSchema.Tag.Parser
import TaggedSchema.Universe.Resolve

/-!
# Build errors

Why a tag cannot be turned into a rule, and why a type is rejected.
-/

namespace TaggedSchema

/-- What a tag needs to be attached to. -/
inductive Target where
  | integer
  | string
  | scalar
  | list
  | map
  | listOrMap
  | struct
  | listOfStructs
  | stringAlias
  deriving DecidableEq

def Target.toText : Target → String
  | integer => "an integer"
  | string => "a string"
  | scalar => "a scalar"
  | list => "a list"
  | map => "a map"
  | listOrMap => "a list or map"
  | struct => "a struct"
  | listOfStructs => "a list of structs"
  | stringAlias => "a string alias type"

inductive PayloadFault where
  | noTag
  | unwanted
  | noValue
  | wrongDomain
  | noWord
  | noInteger
  | negativeLimit
  | unknownWord (said : String)
  deriving DecidableEq

def PayloadFault.message : PayloadFault → String
  | noTag => "expected a nested tag"
  | unwanted => "takes no payload"
  | noValue => "expected a value"
  | wrongDomain => "value does not match the field type"
  | noWord => "expected a word"
  | noInteger => "expected an integer"
  | negativeLimit => "limit may not be negative"
  | unknownWord said => said

inductive ArgumentFault where
  | unwanted
  | noFieldName
  | noGate
  | noSelector
  | unnamedSelector
  | noMemberName
  | noText (name : String)
  | unknown (name : String)
  | unnamed
  deriving DecidableEq

def ArgumentFault.message : ArgumentFault → String
  | unwanted => "takes no arguments"
  | noFieldName => "subfield requires a field name"
  | noGate => "requires exactly one feature gate name"
  | noSelector => "requires at least one key: value selector"
  | unnamedSelector => "selector arguments must be key: value"
  | noMemberName => "memberName is required here"
  | noText name => s!"{name} must be a string"
  | unknown name => s!"unknown argument '{name}'"
  | unnamed => "arguments must be key: value"

inductive CompositionFault where
  | conditional
  | otherNamespace
  | otherListType (tag : String)
  | keyWithoutMap
  | mapWithoutKey
  | uniqueWithListType
  | nothingToReplace
  | duplicateMember (member union : String)
  | secondDiscriminator (union : String)
  | noMembers (union : String)
  deriving DecidableEq

def CompositionFault.message : CompositionFault → String
  | conditional => "may not appear under ifEnabled or ifDisabled"
  | otherNamespace => "nested tag is in a different namespace"
  | otherListType tag => s!"conflicts with '{tag}'"
  | keyWithoutMap => "listMapKey requires listType=map or unique=map"
  | mapWithoutKey => "map identity requires at least one listMapKey"
  | uniqueWithListType => "unique may not be combined with listType=set or listType=map"
  | nothingToReplace => "customUnique requires a uniqueness check to disable"
  | duplicateMember member union => s!"duplicate member '{member}' in union '{union}'"
  | secondDiscriminator union => s!"union '{union}' already has a discriminator"
  | noMembers union => s!"union '{union}' has a discriminator but no members"

/-- Why a tag, quoted by its text, is no rule where it stands. -/
inductive BuildError where
  | scopeMismatch (tag : String) (scope : Scope)
  | incompatibleType (tag : String) (expected : Target) (found : String)
  /-- The rule is less than stable in a field that only rules validate. -/
  | unstable (tag : String) (actual : Stability)
  | duplicateRule (tag : String)
  | conflictingRules (first second : String)
  | unknownTag (tag : String)
  | unknownGate (tag gate : String)
  | invalidPayload (tag : String) (fault : PayloadFault)
  | invalidArguments (tag : String) (fault : ArgumentFault)
  | invalidComposition (tag : String) (fault : CompositionFault)
  | unknownField (tag field owner : String)
  | parse (error : Tag.ParseError)
  | type (error : TypeError)
  /-- The reference names an alias that contains itself. -/
  | endless (ref : TypeRef)
  deriving DecidableEq

def BuildError.message : BuildError → String
  | scopeMismatch tag scope => s!"tag '{tag}' may not be used on a {scope.toText}"
  | incompatibleType tag expected found => s!"tag '{tag}' requires {expected.toText}, found {found}"
  | unstable tag actual =>
    s!"tag '{tag}' is {actual.name}; declarative-native fields accept only stable rules"
  | duplicateRule tag => s!"duplicate rule '{tag}'"
  | conflictingRules first second => s!"conflicting rules '{first}' and '{second}'"
  | unknownTag tag => s!"unknown tag '{tag}'"
  | unknownGate tag gate => s!"tag '{tag}' names unknown feature gate '{gate}'"
  | invalidPayload tag fault => s!"tag '{tag}' has an invalid payload: {fault.message}"
  | invalidArguments tag fault => s!"tag '{tag}' has invalid arguments: {fault.message}"
  | invalidComposition tag fault => s!"tag '{tag}': {fault.message}"
  | unknownField tag field owner =>
    s!"tag '{tag}' names field '{field}' which does not exist in '{owner}'"
  | parse error => s!"failed to parse tag: {error.message}"
  | type error => error.message
  | endless ref => s!"type '{ref.toText}' contains itself without end"

/-- The first build error of a type, and the declared name of the field that has it, if it lies in
one. -/
structure CompileError where
  type : String
  field : Option String
  cause : BuildError
  deriving DecidableEq

def CompileError.message (error : CompileError) : String :=
  let place := match error.field with
    | some field => s!" field '{field}'"
    | none => ""
  s!"type '{error.type}'{place}: {error.cause.message}"

end TaggedSchema
