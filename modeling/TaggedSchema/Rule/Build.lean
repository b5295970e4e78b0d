import TaggedSchema.Options
import TaggedSchema.Rule.Basic
import TaggedSchema.Rule.Error

/-!
# Building rules from tags

The tags of a field, a type or a constant become rules, each checked against what it is attached
to. A composed tag is built by building the tag inside it against the elements, the keys, the
values or the field that it names. Several checks need all rules of one place together.
-/

namespace TaggedSchema

/-- What rules are built against. -/
structure Compiler where
  types : Universe
  options : Options

/-- What the tags around a tag say about it. -/
structure Surroundings where
  /-- Whether one of them is a condition. -/
  conditional : Bool
  /-- The name of a union member that does not give its own. -/
  memberName : Option String

/-- The surroundings of a tag that stands by itself at a type or a constant. -/
def Surroundings.none : Surroundings := ⟨false, Option.none⟩

/-- How a tag is built in a scope against the type it applies to. A tag that is passed over builds
no rule. -/
abbrev Builder := Scope → TypeRef → Surroundings → Except BuildError (Option Rule)

/-! ## Parts of a tag -/

namespace Tag

def payloadError (tag : Tag) (fault : PayloadFault) : BuildError :=
  .invalidPayload tag.raw fault

def argumentError (tag : Tag) (fault : ArgumentFault) : BuildError :=
  .invalidArguments tag.raw fault

/-- The constraint of a tag that takes neither arguments nor a value. -/
def marker (tag : Tag) (constraint : Constraint) : Except BuildError Constraint :=
  if !tag.arguments.isEmpty then .error (tag.argumentError .unwanted)
  else if tag.hasPayload then .error (tag.payloadError .unwanted)
  else .ok constraint

def wordValue (tag : Tag) : Except BuildError String :=
  match tag.value?.bind Literal.text? with
  | some word => .ok word
  | none => .error (tag.payloadError .noWord)

/-- What the word behind the equals sign stands for. -/
def choice {α : Type} (tag : Tag) (words : WordList α) : Except BuildError α := do
  let word ← tag.wordValue
  match words.find? word with
  | some choice => .ok choice
  | none => .error (tag.payloadError (.unknownWord (words.unknown word)))

def integerValue (tag : Tag) : Except BuildError Int :=
  match tag.value?.bind Literal.int? with
  | some value => .ok value
  | none => .error (tag.payloadError .noInteger)

def limitValue (tag : Tag) : Except BuildError Nat := do
  let value ← tag.integerValue
  if value < 0 then .error (tag.payloadError .negativeLimit) else .ok value.toNat

/-- The text of a named argument, if the tag has it. -/
def textArgument (tag : Tag) (name : String) : Except BuildError (Option String) :=
  match tag.argument? name with
  | none => .ok none
  | some value =>
    match value.text? with
    | some text => .ok (some text)
    | none => .error (tag.argumentError (.noText name))

/-- The first argument that has no name or one that is not allowed. -/
def firstBadArgument (allowed : List String) (arguments : List Argument) : Option ArgumentFault :=
  arguments.findSome? fun argument =>
    match argument.name? with
    | some name => if allowed.contains name then none else some (.unknown name)
    | none => some .unnamed

/-- A union tag has named arguments only, and no value. -/
def checkUnionArguments (tag : Tag) (allowed : List String) : Except BuildError Unit :=
  match firstBadArgument allowed tag.arguments with
  | some fault => .error (tag.argumentError fault)
  | none => if tag.hasPayload then .error (tag.payloadError .unwanted) else .ok ()

def unionName (tag : Tag) : Except BuildError String := do
  return (← tag.textArgument "union").getD ""

/-- The name of a union member: its own, or the one that its surroundings give. -/
def memberName (tag : Tag) (around : Surroundings) : Except BuildError String := do
  match ← tag.textArgument "memberName", around.memberName with
  | some name, _ => .ok name
  | none, some name => .ok name
  | none, none => .error (tag.argumentError .noMemberName)

/-- The only argument of a condition. -/
def gateName (tag : Tag) : Except BuildError String :=
  match tag.arguments.length, tag.positional?.bind Literal.text? with
  | 1, some gate => .ok gate
  | _, _ => .error (tag.argumentError .noGate)

end Tag

/-- A literal as the data it stands for. -/
def Literal.toValue : Literal → Value
  | string text => .string text
  | word text => .string text
  | int value => Value.ofInt value
  | bool value => .bool value

/-- The value that a literal names for a scalar of this domain. Every literal is a text where texts
are wanted. -/
def Literal.inDomain? (literal : Literal) : ScalarKind → Option Value
  | .string => some (.string (literal.text?.getD literal.toText))
  | .int | .uint | .float => literal.int?.map Value.ofInt
  | .bool => literal.bool?.map Value.bool

namespace Compiler

/-! ## Types of targets -/

def resolve (c : Compiler) (target : TypeRef) : Except BuildError Resolved :=
  (c.types.resolve target).mapError BuildError.type

/-- The shape of the target, which has to be as expected. -/
def expect (c : Compiler) (tag : Tag) (target : TypeRef) (expected : Target) (fits : Shape → Bool) :
    Except BuildError Unit := do
  let shape := (← c.resolve target).shape
  if fits shape then .ok () else .error (.incompatibleType tag.raw expected shape.toText)

/-- The type of the elements of a list. -/
def element (c : Compiler) (tag : Tag) (target : TypeRef) : Except BuildError TypeRef := do
  match (← c.resolve target).shape with
  | .slice element => .ok element
  | shape => .error (.incompatibleType tag.raw .list shape.toText)

/-- The definition of the struct that a reference leads to. -/
def struct (c : Compiler) (tag : Tag) (target : TypeRef) : Except BuildError TypeDef := do
  let shape := (← c.resolve target).shape
  match shape.structName? with
  | none => .error (.incompatibleType tag.raw .struct shape.toText)
  | some name =>
    match c.types.get? name with
    | some type => .ok type
    | none => .error (.type (.unknownType name))

/-- The definition of the structs that are the elements of a list. -/
def elementStruct (c : Compiler) (tag : Tag) (target : TypeRef) : Except BuildError TypeDef := do
  let shape := (← c.resolve target).shape
  let refused := BuildError.incompatibleType tag.raw .listOfStructs shape.toText
  match shape with
  | .slice element => (c.struct tag element).mapError fun _ => refused
  | _ => .error refused

/-- The field of a struct that a tag names. -/
def fieldOf (tag : Tag) (type : TypeDef) (jsonName : String) : Except BuildError FieldDef :=
  match type.field? jsonName with
  | some field => .ok field
  | none => .error (.unknownField tag.raw jsonName type.name)

/-! ## Conditions and namespaces -/

/-- The gate of a condition, which has to be one that exists. -/
def gate (c : Compiler) (tag : Tag) : Except BuildError String := do
  let gate ← tag.gateName
  match c.options.gates with
  | some registry =>
    if registry.contains gate then .ok gate else .error (.unknownGate tag.raw gate)
  | none => .ok gate

def condition (polarity : Bool) (gate : String) : Condition :=
  ⟨gate, if polarity then .enabled else .disabled⟩

/-- Whether a tag that stands by itself is compiled. -/
def compiles (c : Compiler) (tag : Tag) : Bool :=
  match c.options.qualifier with
  | some qualifier => tag.head.qualifier == some qualifier
  | none => true

/-- The tag inside a composed one, which may go without a qualifier. -/
def inner (c : Compiler) (tag : Tag) : Except BuildError Tag :=
  match tag.inner? with
  | none => .error (tag.payloadError .noTag)
  | some inner =>
    match c.options.qualifier with
    | some qualifier =>
      if inner.belongsTo qualifier then .ok inner
      else .error (.invalidComposition tag.raw .otherNamespace)
    | none => .ok inner

/-- What a tag with a name that is not known comes to. -/
def unknown {α : Type} (c : Compiler) (tag : Tag) : Except BuildError (Option α) :=
  if c.options.allowUnknownTags then .ok none else .error (.unknownTag tag.raw)

/-! ## Enumerations -/

/-- The exclusion that a tag of a constant is built into. -/
def exclusion (c : Compiler) : Tag → Except BuildError (Option Exclusion)
  | .composed head nested => do
    let tag := Tag.composed head nested
    match Directive.ofName? head.name with
    | none => c.unknown tag
    | some (.simple .enumExclude) =>
      let _ ← tag.marker .enumExclude
      return some (.always tag.raw)
    | some (.conditional polarity) =>
      let gate ← c.gate tag
      let _ ← c.inner tag
      match ← c.exclusion nested with
      | some inner => return some (.guarded (condition polarity gate) inner tag.raw)
      | none => return none
    | some _ => .error (.scopeMismatch tag.raw .constant)
  | tag => do
    match Directive.ofName? tag.name with
    | none => c.unknown tag
    | some (.simple .enumExclude) =>
      let _ ← tag.marker .enumExclude
      return some (.always tag.raw)
    | some (.conditional _) =>
      let _ ← c.gate tag
      .error (tag.payloadError .noTag)
    | some _ => .error (.scopeMismatch tag.raw .constant)

def enumMember (c : Compiler) (constant : ConstantDef) : Except BuildError EnumMember := do
  let tags ← (Tag.parseLines .constant constant.tags).mapError BuildError.parse
  let exclusions ← (tags.filter c.compiles).mapM c.exclusion
  return ⟨constant.name, constant.value, exclusions.filterMap id⟩

/-- The constants of an alias of a string. -/
def enumeration (c : Compiler) (tag : Tag) (target : TypeRef) : Except BuildError Constraint := do
  if tag.hasPayload || !tag.arguments.isEmpty then .error (tag.payloadError .unwanted)
  else
    let refused := BuildError.incompatibleType tag.raw .stringAlias target.toText
    match target with
    | .named name =>
      match c.types.get? name with
      | none => .error (.type (.unknownType name))
      | some type =>
        match type.body with
        | .struct _ => .error refused
        | .alias underlying constants =>
          if (← c.resolve underlying).shape.isString then
            return .enumeration (← constants.mapM c.enumMember)
          else .error refused
    | _ => .error refused

/-! ## Tags -/

/-- The value that may not occur at a scalar. -/
def differs (c : Compiler) (tag : Tag) (target : TypeRef) : Except BuildError Constraint := do
  match (← c.resolve target).shape with
  | .scalar kind =>
    match tag.value? with
    | none => .error (tag.payloadError .noValue)
    | some literal =>
      match literal.inDomain? kind with
      | some value => .ok (.differs value)
      | none => .error (tag.payloadError .wrongDomain)
  | shape => .error (.incompatibleType tag.raw .scalar shape.toText)

/-- The constraint of a tag that is a rule by itself. -/
def constraint (c : Compiler) (tag : Tag) (target : TypeRef) (around : Surroundings) :
    SimpleTag → Except BuildError Constraint
  | .required => tag.marker .required
  | .optional => tag.marker .optional
  | .forbidden => tag.marker .forbidden
  | .immutable => tag.marker .immutable
  | .opaqueType => tag.marker .opaqueType
  | .declarativeValidationNative => tag.marker .native
  | .enumExclude => tag.marker .enumExclude
  | .update => return .restriction (← tag.choice Restriction.words)
  | .minimum => do
    c.expect tag target .integer Shape.isInteger
    return .minimum (← tag.integerValue)
  | .maxLength => do
    c.expect tag target .string Shape.isString
    return .maxLength (← tag.limitValue)
  | .maxItems => do
    c.expect tag target .list Shape.isSlice
    return .maxItems (← tag.limitValue)
  | .maxProperties => do
    c.expect tag target .map Shape.isMap
    return .maxProperties (← tag.limitValue)
  | .format => do
    c.expect tag target .string Shape.isString
    return .format (← tag.choice Format.words)
  | .neq => c.differs tag target
  | .enum => c.enumeration tag target
  | .listType => do
    let type ← tag.choice ListType.words
    if type = .map then let _ ← c.elementStruct tag target
    else let _ ← c.element tag target
    return .listType type
  | .unique => do
    let mode ← tag.choice UniqueMode.words
    if mode = .map then let _ ← c.elementStruct tag target
    else let _ ← c.element tag target
    return .unique mode
  | .listMapKey => do
    let type ← c.elementStruct tag target
    let name ← tag.wordValue
    let _ ← fieldOf tag type name
    return .listMapKey name
  | .customUnique => do
    let _ ← c.element tag target
    tag.marker .customUnique
  | .unionMember => do
    tag.checkUnionArguments ["union", "memberName"]
    let member ← tag.memberName around
    return .unionMember (← tag.unionName) member
  | .zeroOrOneOfMember => do
    tag.checkUnionArguments ["union", "memberName"]
    let member ← tag.memberName around
    return .zeroOrOneOf (← tag.unionName) member
  | .unionDiscriminator => do
    tag.checkUnionArguments ["union"]
    c.expect tag target .string Shape.isString
    return .unionDiscriminator (← tag.unionName)

/-- One key field of an item selector. -/
def selectorKey (tag : Tag) (type : TypeDef) (argument : Argument) :
    Except BuildError (String × Value) := do
  match argument.name? with
  | none => .error (tag.argumentError .unnamedSelector)
  | some name =>
    let _ ← fieldOf tag type name
    return (name, argument.value.toValue)

/-- Build the tag inside `tag`, and put what it builds into `wrap`. -/
def wrapped (c : Compiler) (tag : Tag) (nested : Builder) (scope : Scope) (target : TypeRef)
    (around : Surroundings) (wrap : Rule → Rule) : Except BuildError (Option Rule) := do
  let _ ← c.inner tag
  return (← nested scope target around).map wrap

/-- Build a tag whose name is known. `nested` builds the tag inside it. -/
def directive (c : Compiler) (tag : Tag) (nested : Builder) (scope : Scope) (target : TypeRef)
    (around : Surroundings) : Directive → Except BuildError (Option Rule)
  | .simple name => return some (.leaf (← c.constraint tag target around name) tag.raw)
  | .eachVal => do
    match (← c.resolve target).shape with
    | .slice element =>
      c.wrapped tag nested .listValue element around (.within .eachVal · tag.raw)
    | .map _ value => c.wrapped tag nested .mapValue value around (.within .eachVal · tag.raw)
    | shape => .error (.incompatibleType tag.raw .listOrMap shape.toText)
  | .eachKey => do
    match (← c.resolve target).shape with
    | .map key _ => c.wrapped tag nested .mapKey key around (.within .eachKey · tag.raw)
    | shape => .error (.incompatibleType tag.raw .map shape.toText)
  | .subfield => do
    let type ← c.struct tag target
    match tag.positional?.bind Literal.text? with
    | none => .error (tag.argumentError .noFieldName)
    | some jsonName =>
      let field ← fieldOf tag type jsonName
      c.wrapped tag nested .field field.type { around with memberName := some field.name }
        (.within (.subfield jsonName) · tag.raw)
  | .item => do
    let type ← c.elementStruct tag target
    let element ← c.element tag target
    if tag.arguments.isEmpty then .error (tag.argumentError .noSelector)
    else
      let keys ← tag.arguments.mapM (selectorKey tag type)
      let memberName := keys.head?.map fun key => identityText key.2
      c.wrapped tag nested .listValue element { around with memberName }
        (.within (.item ⟨keys⟩) · tag.raw)
  | .conditional polarity => do
    let gate ← c.gate tag
    c.wrapped tag nested scope target { around with conditional := true }
      (.guarded (condition polarity gate) · tag.raw)

/-- Check the name and the scope of a tag, and build it. -/
def step (c : Compiler) (tag : Tag) (nested : Builder) : Builder := fun scope target around =>
  match Directive.ofName? tag.name with
  | none => c.unknown tag
  | some directive =>
    if !directive.scopes.contains scope then .error (.scopeMismatch tag.raw scope)
    else if around.conditional && directive.isUnconditional then
      .error (.invalidComposition tag.raw .conditional)
    else c.directive tag nested scope target around directive

/-- The rule that a tag is built into. -/
def build (c : Compiler) : Tag → Builder
  | .composed head inner => c.step (.composed head inner) (c.build inner)
  | tag => c.step tag fun _ _ _ => .ok none

/-! ## Rules of one place -/

/-- Constraints on presence and change, each of which may occur once. -/
def isPresence (constraint : Constraint) : Bool :=
  match constraint with
  | .required | .optional | .forbidden | .immutable => true
  | _ => false

/-- The text of the first presence rule that occurs a second time. -/
def firstRepeated (seen : List SimpleTag) : List Rule → Option String
  | [] => none
  | .leaf constraint tag :: rules =>
    if !isPresence constraint then firstRepeated seen rules
    else if seen.contains constraint.tag then some tag
    else firstRepeated (constraint.tag :: seen) rules
  | _ :: rules => firstRepeated seen rules

/-- The first rule without a condition whose constraint is written by one of these tags. -/
def firstWritten (tags : List SimpleTag) (rules : List Rule) : Option Rule :=
  rules.find? (Rule.asks fun constraint => tags.contains constraint.tag)

/-- The first rule at any depth that is less than stable. -/
def firstUnstable (rules : List Rule) : Option Rule :=
  (rules.flatMap Rule.all).find? fun rule => rule.stability != .stable

/-- Check what all rules of one place have to satisfy together. -/
def check (rules : List Rule) : Except BuildError Unit :=
  match firstRepeated [] rules with
  | some tag => .error (.duplicateRule tag)
  | none =>
    match firstWritten [.required] rules, firstWritten [.optional, .forbidden] rules with
    | some required, some other => .error (.conflictingRules required.tag other.tag)
    | _, _ =>
      if hasConstraint rules fun constraint => constraint.tag == .declarativeValidationNative then
        match firstUnstable rules with
        | some rule => .error (.unstable rule.tag rule.stability)
        | none => .ok ()
      else .ok ()

/-- The rules of all tags that are compiled. -/
def rules (c : Compiler) (tags : List Tag) (scope : Scope) (target : TypeRef)
    (around : Surroundings) : Except BuildError (List Rule) := do
  let built ← (tags.filter c.compiles).mapM fun tag => c.build tag scope target around
  let rules := built.filterMap id
  check rules
  return rules

/-- The rules attached to a field. -/
def fieldRules (c : Compiler) (field : FieldDef) : Except BuildError (List Rule) := do
  let tags ← (Tag.parseLines .field field.tags).mapError BuildError.parse
  c.rules tags .field field.type ⟨false, some field.name⟩

/-- The rules attached to a type, which apply wherever one of its values stands. -/
def typeRules (c : Compiler) (type : TypeDef) : Except BuildError (List Rule) := do
  let tags ← (Tag.parseLines .type type.tags).mapError BuildError.parse
  c.rules tags .type (.named type.name) .none

end Compiler

end TaggedSchema
