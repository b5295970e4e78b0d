import TaggedSchema.Validation.Check
import TaggedSchema.Validation.Elements
import TaggedSchema.Validation.Fit
import TaggedSchema.Validation.Unions

/-!
# Validation

A walk over an object yields its violations. On update an earlier version of the object is walked
along with it, and a value that is equal to its earlier version is skipped with all that lies
inside it. At any other value the rules on change and presence come first, of which one violation
ends the walk there. Then the value has to fit its plan, the rules on the value are checked, and
the walk goes on inside.

The walk is a recursion on the value. What is found at a value is a function of the walks at the
values inside it.
-/

namespace TaggedSchema

/-- Where a value stands, and what is known about the place. -/
structure Site where
  path : Path
  /-- The rules at the place itself, with their conditions. -/
  rules : List Rule
  plan : Plan
  /-- On update, the earlier value if the place existed; null if it was unset. -/
  old : Option Value
  /-- The place lies in a field that only rules validate. -/
  native : Bool
  /-- The place is a field, which may be unset. -/
  isField : Bool
  /-- Only the rules at the place itself apply, and nothing inside the value is looked at. -/
  isShallow : Bool

namespace Site

def isUnchanged (site : Site) (value : Value) : Bool :=
  site.old.any fun old => value == old

def rejection? (site : Site) (value : Value) (rules : List Constraint) : Option Violation := do
  let old ← site.old
  let change ← site.plan.change? old value
  rules.findSome? fun constraint =>
    (constraint.rejection? change).map fun detail =>
      .forbidden site.path detail constraint.origin

/-- The violation of a rule on change or presence, if there is one. Rules on change come first. -/
def blocked? (site : Site) (value : Value) (rules : List Constraint) : Option Violation :=
  (site.rejection? value rules).or
    (rules.findSome? fun constraint =>
      constraint.presence? site.path (site.plan.isUnset value))

/-- The violation by a value that does not fit. It is put down to the first rule that would have
looked at the value. -/
def mismatch (site : Site) (value : Value) (rules : List Constraint) : Violation :=
  let origin := ((rules.find? Constraint.checksValue).map Constraint.origin).getD "type"
  .invalid site.path value ("must be " ++ site.plan.expected) origin

/-- The earlier value, unless it was unset. -/
def existing (site : Site) : Option Value :=
  site.old.filter fun old => !old.isNull

/-- The site of a field inside. -/
def field (site : Site) (field : CompiledField) (rules : List Rule) (isShallow : Bool) : Site where
  path := site.path.field field.jsonName
  rules
  plan := field.plan
  old := site.existing.map fun old => old.member field.jsonName
  native := site.native || field.native
  isField := true
  isShallow

/-- The site of the item that a rule selects, at a path of its own. -/
def item (site : Site) (path : Path) (selector : ItemSelector) (plan : Plan) (rule : Rule) :
    Site where
  path
  rules := [rule]
  plan
  old := site.existing.map fun old =>
    ((old.items?.getD []).find? selector.selects).getD .null
  native := site.native
  isField := true
  isShallow := true

/-- The site of an element of a list, or of a key or value of a map. -/
def inner (site : Site) (path : Path) (plan : Plan) (rules : List Rule) (old : Option Value) :
    Site where
  path
  rules
  plan
  old
  native := site.native
  isField := false
  isShallow := false

end Site

/-- What the walk finds from a site on. -/
abbrev Walk := Site → List Violation

/-- A value inside another one. -/
structure Node where
  value : Value
  walk : Walk

/-- What lies inside a value. -/
inductive Inside where
  | nothing
  | items (nodes : List Node)
  | members (nodes : List (String × Node))

/-- What a walk goes by. -/
structure Context where
  schema : Schema
  gates : GateView

namespace Context

/-- The active rules that named types lend to their values. -/
def lentRules (c : Context) (named : List String) : List Rule :=
  named.flatMap fun name =>
    match c.schema.get? name with
    | some type => activeRules c.gates type.rules
    | none => []

/-- The walk at a value, given what its rules at other places find and what lies inside. -/
def walkWith (c : Context) (value : Value) (atPlace : Site → Place → Rule → List Violation)
    (inside : Site → List Rule → List Violation) : Walk := fun site =>
  if site.isUnchanged value then []
  else
    let own := activeRules c.gates site.rules
    match site.blocked? value (own.filterMap Rule.constraint?) with
    | some violation => [violation.nativeIf site.native]
    | none =>
      if value.isNull || site.isField && site.plan.isUnset value then []
      else
        let rules := if site.isShallow then own else own ++ c.lentRules site.plan.access.named
        if site.plan.fits value then
          let found := rules.flatMap fun rule =>
            match rule with
            | .leaf constraint _ =>
              ((constraint.breach? c.gates site.path value).map
                fun violation => violation.nativeIf site.native).toList
            | .within place inner _ => atPlace site place inner
            | .guarded .. => []
          if site.isShallow then found else found ++ inside site rules
        else [(site.mismatch value (rules.filterMap Rule.constraint?)).nativeIf site.native]

/-- The walk at a value with nothing inside. -/
def walkScalar (c : Context) (value : Value) : Walk :=
  c.walkWith value (fun _ _ _ => []) (fun _ _ => [])

/-- The member under a name. A missing one is null. -/
def memberNode (c : Context) (nodes : List (String × Node)) (name : String) : Node :=
  match Catalog.findEntry Prod.fst name nodes with
  | some (_, node) => node
  | none => ⟨.null, c.walkScalar .null⟩

/-- The item that a selector chooses, with its path in the list. A missing one is null and has the
path that its key fields give it. -/
def selectedNode (c : Context) (list : Path) (semantics : ListSemantics) (selector : ItemSelector)
    (nodes : List Node) : Path × Node :=
  match nodes.zipIdx.find? fun (node, _) => selector.selects node.value with
  | some (node, position) => (semantics.elementPath list position node.value, node)
  | none => (list.key selector.identity, ⟨.null, c.walkScalar .null⟩)

/-- What a rule finds at another place than the value itself. -/
def walkPlace (c : Context) (inside : Inside) (site : Site) (place : Place) (rule : Rule) :
    List Violation :=
  match place, site.plan, inside with
  | .subfield name, .struct _ type, .members nodes =>
    match (c.schema.struct? type).bind fun body => body.field? name with
    | some field => (c.memberNode nodes name).walk (site.field field [rule] true)
    | none => []
  | .item selector, .list _ element semantics, .items nodes =>
    let (path, node) := c.selectedNode site.path semantics selector nodes
    node.walk (site.item path selector element rule)
  | _, _, _ => []

/-- The fields of a struct, then its unions. -/
def walkFields (c : Context) (value : Value) (nodes : List (String × Node)) (site : Site)
    (body : CompiledStruct) : List Violation :=
  let fields := body.fields.flatMap fun field =>
    (c.memberNode nodes field.jsonName).walk (site.field field field.rules field.isOpaque)
  fields ++ (body.unionViolations site.path value site.existing).map
    fun violation => violation.nativeIf site.native

/-- Repeated elements, then each element. -/
def walkItems (nodes : List Node) (site : Site) (element : Plan) (semantics : ListSemantics)
    (rules : List Rule) : List Violation :=
  let repeated :=
    if semantics.checksUniqueness then semantics.duplicates site.path (nodes.map Node.value)
    else []
  let earlier := site.old.bind Value.items?
  let elements := nodes.zipIdx.flatMap fun (node, position) =>
    let path := semantics.elementPath site.path position node.value
    let old := earlier.bind fun earlier => semantics.counterpart? earlier node.value
    node.walk (site.inner path element rules old)
  repeated.map (fun violation => violation.nativeIf site.native) ++ elements

/-- Each key of a map that is new, if there is something to check, and each value. -/
def walkEntries (c : Context) (nodes : List (String × Node)) (site : Site) (key value : Plan)
    (keyRules valueRules : List Rule) : List Violation :=
  nodes.flatMap fun (name, node) =>
    let path := site.path.key name
    let old := site.old.bind fun old => old.member? name
    let keys :=
      if old.isSome || keyRules.isEmpty && key.access.named.isEmpty then []
      else c.walkScalar (key.keyValue name) (site.inner path key keyRules none)
    keys ++ node.walk (site.inner path value valueRules old)

/-- What is found inside a value by its plan. -/
def walkInside (c : Context) (value : Value) (inside : Inside) (site : Site) (rules : List Rule) :
    List Violation :=
  match site.plan, inside with
  | .struct _ name, .members nodes =>
    match c.schema.struct? name with
    | some body => c.walkFields value nodes site body
    | none => []
  | .list _ element semantics, .items nodes =>
    walkItems nodes site element semantics (rulesWithin Place.isEachVal rules)
  | .map _ key value, .members nodes =>
    c.walkEntries nodes site key value (rulesWithin Place.isEachKey rules)
      (rulesWithin Place.isEachVal rules)
  | _, _ => []

/-- The walk at a value, given the walks inside it. -/
def walkAt (c : Context) (value : Value) (inside : Inside) : Walk :=
  c.walkWith value (c.walkPlace inside) (c.walkInside value inside)

mutual

/-- The walk over a value. -/
def walk (c : Context) : Value → Walk
  | .array items => c.walkAt (.array items) (.items (itemNodes c items))
  | .object members => c.walkAt (.object members) (.members (memberNodes c members))
  | .null => c.walkScalar .null
  | .bool value => c.walkScalar (.bool value)
  | .number value => c.walkScalar (.number value)
  | .string text => c.walkScalar (.string text)

def itemNodes (c : Context) : List Value → List Node
  | [] => []
  | item :: items => ⟨item, walk c item⟩ :: itemNodes c items

def memberNodes (c : Context) : List (String × Value) → List (String × Node)
  | [] => []
  | (name, value) :: members => (name, ⟨value, walk c value⟩) :: memberNodes c members

end

theorem itemNodes_eq_map (c : Context) (items : List Value) :
    c.itemNodes items = items.map fun item => ⟨item, c.walk item⟩ := by
  induction items with
  | nil => rfl
  | cons item items ih => rw [itemNodes, ih, List.map_cons]

theorem memberNodes_eq_map (c : Context) (members : List (String × Value)) :
    c.memberNodes members = members.map fun (name, value) => (name, ⟨value, c.walk value⟩) := by
  induction members with
  | nil => rfl
  | cons member members ih => rw [memberNodes, ih, List.map_cons]

end Context

/-- The plan of the objects of a type. -/
def CompiledType.plan (type : CompiledType) : Plan :=
  match type.body with
  | .struct _ => .struct ⟨false, [type.name]⟩ type.name
  | .alias plan => plan

/-- The site of a whole object. Only the rules of its type apply there. -/
def Site.root (plan : Plan) (old : Option Value) : Site :=
  ⟨.root, [], plan, old, false, false, false⟩

/-- The violations of an object of a compiled type, where on update `old` is its earlier
version. -/
def CompiledType.violations (type : CompiledType) (schema : Schema) (gates : GateView)
    (new : Value) (old : Option Value) : List Violation :=
  Context.walk ⟨schema, gates⟩ new (.root type.plan old)

/-- A type that is not in the schema, be it that it was never defined or that it was rejected. -/
structure UnknownType where
  name : String
  deriving DecidableEq

def UnknownType.message (error : UnknownType) : String :=
  s!"type '{error.name}' is not in the compiled schema"

def Schema.type (schema : Schema) (name : String) : Except UnknownType CompiledType :=
  match schema.get? name with
  | some type => .ok type
  | none => .error ⟨name⟩

/-- The violations of an object of the type with this name. -/
def validate (schema : Schema) (name : String) (gates : GateView) (new : Value)
    (old : Option Value) : Except UnknownType (List Violation) :=
  (schema.type name).map fun type => type.violations schema gates new old

end TaggedSchema
