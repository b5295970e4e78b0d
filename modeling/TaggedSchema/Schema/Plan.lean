import TaggedSchema.Rule.Build

/-!
# Plans

A plan says what a value is expected to look like and which named types lend their rules to it.
The plan of a list also says how its elements are identified, which is gathered from the rules at
the list and from those of the aliases that lead to it.
-/

namespace TaggedSchema

/-- How the elements of a list are told apart. -/
inductive ElementIdentity where
  /-- By position; elements may be equal. -/
  | positional
  /-- By their whole value. -/
  | value
  /-- By key fields. -/
  | keys
  deriving DecidableEq

structure ListSemantics where
  listType : ListType
  /-- The key fields, in the order in which they were named. -/
  keys : List String
  unique : Option UniqueMode
  /-- Equal elements are looked for elsewhere. -/
  customUnique : Bool
  deriving DecidableEq

namespace ListSemantics

/-- Of a list about which nothing is said. -/
def atomic : ListSemantics := ⟨.atomic, [], none, false⟩

def identity (semantics : ListSemantics) : ElementIdentity :=
  if semantics.listType = .map ∨ semantics.unique = some .map then .keys
  else if semantics.listType = .set ∨ semantics.unique = some .set then .value
  else .positional

/-- Whether equal elements are violations. -/
def checksUniqueness (semantics : ListSemantics) : Bool :=
  !semantics.customUnique && semantics.identity != .positional

/-- The origin of violations by equal elements. -/
def origin (semantics : ListSemantics) : String :=
  match semantics.listType, semantics.unique with
  | .map, _ => "listType=map"
  | .set, _ => "listType=set"
  | .atomic, some .map => "unique=map"
  | .atomic, some .set => "unique=set"
  | .atomic, none => "listType"

end ListSemantics

/-- How a value is reached. -/
structure Access where
  /-- Through a pointer, so that a zero value is a set one. -/
  nullable : Bool
  /-- The named types met on the way, outermost first. -/
  named : List String
  deriving DecidableEq

inductive Plan where
  | scalar (access : Access) (kind : ScalarKind)
  | list (access : Access) (element : Plan) (semantics : ListSemantics)
  | map (access : Access) (key value : Plan)
  | struct (access : Access) (name : String)
  deriving DecidableEq

def Plan.access : Plan → Access
  | scalar access _ => access
  | list access _ _ => access
  | map access _ _ => access
  | struct access _ => access

/-- What is said about the lists in a plan, from the outermost on, and about those in the keys of
a map before those in its values. -/
def Plan.lists : Plan → List ListSemantics
  | scalar .. | struct .. => []
  | list _ element semantics => semantics :: element.lists
  | map _ key value => key.lists ++ value.lists

/-- What the rules read so far say about a list, with the tags that said it. -/
structure ListMetadata where
  semantics : ListSemantics
  typeTag : Option String
  keyTag : Option String
  uniqueTag : Option String
  customTag : Option String

namespace ListMetadata

def empty : ListMetadata := ⟨.atomic, none, none, none, none⟩

/-- Two list types contradict each other unless they are the same. -/
def addType (m : ListMetadata) (type : ListType) (tag : String) :
    Except BuildError ListMetadata :=
  let added := { m with semantics := { m.semantics with listType := type }, typeTag := some tag }
  match m.typeTag with
  | some previous =>
    if m.semantics.listType = type then .ok added
    else .error (.invalidComposition tag (.otherListType previous))
  | none => .ok added

/-- A key counts once, and the first key tag is remembered. -/
def addKey (m : ListMetadata) (name tag : String) : ListMetadata :=
  let keys := if m.semantics.keys.contains name then m.semantics.keys
    else m.semantics.keys ++ [name]
  { m with semantics := { m.semantics with keys }, keyTag := some (m.keyTag.getD tag) }

/-- Take in one rule. Rules about other things than the list say nothing here. -/
def add (m : ListMetadata) : Rule → Except BuildError ListMetadata
  | .leaf (.listType type) tag => m.addType type tag
  | .leaf (.listMapKey name) tag => .ok (m.addKey name tag)
  | .leaf (.unique mode) tag =>
    .ok { m with semantics := { m.semantics with unique := some mode }, uniqueTag := some tag }
  | .leaf .customUnique tag =>
    .ok { m with semantics := { m.semantics with customUnique := true }, customTag := some tag }
  | _ => .ok m

/-- The tag that is blamed when key fields are missing. -/
def identityTag (m : ListMetadata) : String :=
  (m.typeTag.or m.uniqueTag).getD "+k8s:listType=map"

/-- Keys go with map identity and only with it, uniqueness is said once, and only a check that
would be made can be replaced. -/
def finish (m : ListMetadata) : Except BuildError ListSemantics :=
  let byKeys := m.semantics.identity = .keys
  match m.keyTag.filter fun _ => !byKeys with
  | some tag => .error (.invalidComposition tag .keyWithoutMap)
  | none =>
    if byKeys ∧ m.semantics.keys.isEmpty then
      .error (.invalidComposition m.identityTag .mapWithoutKey)
    else
      match m.uniqueTag.filter fun _ => m.semantics.listType != .atomic with
      | some tag => .error (.invalidComposition tag .uniqueWithListType)
      | none =>
        match m.customTag.filter fun _ => m.semantics.identity == .positional with
        | some tag => .error (.invalidComposition tag .nothingToReplace)
        | none => .ok m.semantics

end ListMetadata

def ListSemantics.ofRules (rules : List Rule) : Except BuildError ListSemantics := do
  let metadata ← rules.foldlM ListMetadata.add .empty
  metadata.finish

/-- The rules inside those rules without a condition that apply at such a place. -/
def rulesWithin (isPlace : Place → Bool) (rules : List Rule) : List Rule :=
  rules.filterMap fun rule =>
    match rule with
    | .within place inner _ => if isPlace place then some inner else none
    | _ => none

namespace Compiler

/-- The rules that an alias lends to its values. Those of a struct are found by its name later. -/
def aliasRules (c : Compiler) (name : String) : Except BuildError (List Rule) :=
  match c.types.get? name with
  | some type => if type.isAlias then c.typeRules type else .ok []
  | none => .ok []

/-- The plan of a reference with these rules at it, where at most `depth` references lie inside
each other. -/
def planWithin (c : Compiler) (depth : Nat) (ref : TypeRef) (here : List Rule) :
    Except BuildError Plan :=
  match depth with
  | 0 => .error (.endless ref)
  | depth + 1 => do
    let resolved ← c.resolve ref
    let inherited ← resolved.named.mapM c.aliasRules
    let rules := here ++ inherited.flatten
    let access : Access := ⟨resolved.nullable, resolved.named⟩
    match resolved.shape with
    | .scalar kind => return .scalar access kind
    | .struct name => return .struct access name
    | .slice element =>
      let semantics ← ListSemantics.ofRules rules
      let element ← c.planWithin depth element (rulesWithin Place.isEachVal rules)
      return .list access element semantics
    | .map key value =>
      let key ← c.planWithin depth key (rulesWithin Place.isEachKey rules)
      let value ← c.planWithin depth value (rulesWithin Place.isEachVal rules)
      return .map access key value

/-- The size of what a definition stands for. -/
def expansion (type : TypeDef) : Nat :=
  match type.body with
  | .struct _ => 0
  | .alias underlying _ => underlying.size

/-- A bound on the references inside each other. Unless an alias contains itself, each alias is
expanded at most once on the way inwards. -/
def depthBound (c : Compiler) (ref : TypeRef) : Nat :=
  c.types.entries.foldr (fun type bound => expansion type + bound) (ref.size + 1)

/-- The plan of a reference with these rules at it. -/
def plan (c : Compiler) (ref : TypeRef) (here : List Rule) : Except BuildError Plan :=
  c.planWithin (c.depthBound ref) ref here

end Compiler

end TaggedSchema
