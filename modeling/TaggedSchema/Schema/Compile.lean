import TaggedSchema.Schema.Basic

/-!
# Compiling a universe

Each definition is compiled by itself. One that has a build error is left out of the schema and
listed with the error; the others are compiled all the same.
-/

namespace TaggedSchema

/-- The unions found among the fields of a struct so far. -/
structure Unions where
  unions : List UnionGroup
  zeroOrOne : List UnionGroup

namespace Unions

def empty : Unions := ⟨[], []⟩

/-- Change the group with this name, which is added at the end if there is none. -/
def update (name : String) (change : UnionGroup → Except BuildError UnionGroup) :
    List UnionGroup → Except BuildError (List UnionGroup)
  | [] => do
    let group ← change ⟨name, none, []⟩
    return [group]
  | group :: groups =>
    if group.name = name then do
      let group ← change group
      return group :: groups
    else do
      let groups ← update name change groups
      return group :: groups

/-- Add the member or discriminator that a rule makes of a field, or of the selected item of it. -/
def add (u : Unions) (field : String) (selector : Option ItemSelector) :
    Rule → Except BuildError Unions
  | .leaf (.unionMember union member) tag => do
    let unions ← update union (fun group =>
      if group.members.any fun m => m.name == member then
        .error (.invalidComposition tag (.duplicateMember member union))
      else .ok { group with members := group.members ++ [⟨member, field, selector⟩] }) u.unions
    return { u with unions }
  | .leaf (.zeroOrOneOf group member) _ => do
    let zeroOrOne ← update group (fun group =>
      .ok { group with members := group.members ++ [⟨member, field, selector⟩] }) u.zeroOrOne
    return { u with zeroOrOne }
  | .leaf (.unionDiscriminator union) tag => do
    let unions ← update union (fun group =>
      if group.discriminator.isSome then
        .error (.invalidComposition tag (.secondDiscriminator union))
      else .ok { group with discriminator := some field }) u.unions
    return { u with unions }
  | _ => .ok u

/-- Add what a rule of a field says, directly or of one item. -/
def addFieldRule (field : String) (u : Unions) (rule : Rule) : Except BuildError Unions := do
  let u ← u.add field none rule
  match rule with
  | .within (.item selector) inner _ => u.add field (some selector) inner
  | _ => return u

/-- The first union that has a discriminator and nothing to choose from. -/
def firstWithoutMembers (u : Unions) : Option UnionGroup :=
  u.unions.find? fun group => group.discriminator.isSome && group.members.isEmpty

end Unions

namespace Compiler

/-- Compile one field, given the unions of the fields before it. -/
def field (c : Compiler) (u : Unions) (field : FieldDef) :
    Except BuildError (CompiledField × Unions) := do
  let rules ← c.fieldRules field
  let plan ← c.plan field.type rules
  let u ← rules.foldlM (Unions.addFieldRule field.jsonName) u
  let has (tag : SimpleTag) := hasConstraint rules fun constraint => constraint.tag == tag
  return (⟨field.name, field.jsonName, rules, plan, has .declarativeValidationNative,
    has .opaqueType⟩, u)

def fields (c : Compiler) (type : String) (u : Unions) :
    List FieldDef → Except CompileError (List CompiledField × Unions)
  | [] => .ok ([], u)
  | field :: rest => do
    let (compiled, u) ← (c.field u field).mapError fun cause => ⟨type, some field.name, cause⟩
    let (others, u) ← c.fields type u rest
    return (compiled :: others, u)

/-- The tag that is blamed for a union without members. -/
def discriminatorTag : String := "+k8s:unionDiscriminator"

def structBody (c : Compiler) (type : String) (fields : List FieldDef) :
    Except CompileError CompiledStruct := do
  let (fields, u) ← c.fields type .empty fields
  match u.firstWithoutMembers with
  | some group =>
    .error ⟨type, none, .invalidComposition discriminatorTag (.noMembers group.name)⟩
  | none => return ⟨fields, u.unions, u.zeroOrOne⟩

def definition (c : Compiler) (type : TypeDef) : Except CompileError CompiledType := do
  let refused (cause : BuildError) : CompileError := ⟨type.name, none, cause⟩
  let rules ← (c.typeRules type).mapError refused
  let body ← match type.body with
    | .struct fields => CompiledType.Body.struct <$> c.structBody type.name fields
    | .alias .. => CompiledType.Body.alias <$> (c.plan (.named type.name) []).mapError refused
  return ⟨type.name, rules, body⟩

end Compiler

structure Compilation where
  schema : Schema
  /-- One for each rejected type, in name order. -/
  errors : List CompileError

def errorOf? {ε α : Type} : Except ε α → Option ε
  | .error error => some error
  | .ok _ => none

/-- Compile all definitions. -/
def compile (types : Universe) (options : Options) : Compilation :=
  let results := types.entries.map (Compiler.definition ⟨types, options⟩)
  ⟨Catalog.ofList (results.filterMap Except.toOption), results.filterMap errorOf?⟩

def Compilation.isOk (compilation : Compilation) : Bool :=
  compilation.errors.isEmpty

end TaggedSchema
