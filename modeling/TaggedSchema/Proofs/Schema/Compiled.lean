import TaggedSchema.Proofs.Catalog
import TaggedSchema.Proofs.Results
import TaggedSchema.Schema.Compile

/-!
# What definitions are compiled into

Plans have the shapes of the references they are made from. When no definition has been rejected,
each of them is in the schema under its name, with its fields in their order.
-/

namespace TaggedSchema

namespace Plan

/-- The same plan, reached in another way. -/
def withAccess (access : Access) : Plan → Plan
  | scalar _ kind => scalar access kind
  | list _ element semantics => list access element semantics
  | map _ key value => map access key value
  | struct _ name => struct access name

/-- The same plan, reached through other named types. -/
def withNamed (plan : Plan) (named : List String) : Plan :=
  plan.withAccess ⟨plan.access.nullable, named⟩

@[simp]
theorem withNamed_self (plan : Plan) : plan.withNamed plan.access.named = plan := by
  cases plan <;> rfl

end Plan

namespace Compiler

variable {c : Compiler} {ref : TypeRef} {plan : Plan} {resolved : Resolved}
variable {here rules : List Rule} {access : Access}

/-! ## Plans -/

/-- The plan is the one of the reference with these rules at it, at whatever depth. -/
def Plans (c : Compiler) (ref : TypeRef) (here : List Rule) (plan : Plan) : Prop :=
  ∃ depth, c.planWithin depth ref here = .ok plan

/-- The plan is the one of the shape with these rules, reached in this way. -/
inductive PlansAs (c : Compiler) (access : Access) (rules : List Rule) : Shape → Plan → Prop
  | scalar (kind : ScalarKind) : PlansAs c access rules (.scalar kind) (.scalar access kind)
  | struct (name : String) : PlansAs c access rules (.struct name) (.struct access name)
  | slice {element : TypeRef} {inner : Plan} {semantics : ListSemantics}
      (hsemantics : ListSemantics.ofRules rules = .ok semantics)
      (hinner : c.Plans element (rulesWithin Place.isEachVal rules) inner) :
      PlansAs c access rules (.slice element) (.list access inner semantics)
  | map {key value : TypeRef} {keyPlan valuePlan : Plan}
      (hkey : c.Plans key (rulesWithin Place.isEachKey rules) keyPlan)
      (hvalue : c.Plans value (rulesWithin Place.isEachVal rules) valuePlan) :
      PlansAs c access rules (.map key value) (.map access keyPlan valuePlan)

theorem Plans.inherited (h : c.Plans ref here plan) :
    ∃ resolved inherited, c.resolve ref = .ok resolved ∧
      resolved.named.mapM c.aliasRules = .ok inherited ∧
      c.PlansAs ⟨resolved.nullable, resolved.named⟩ (here ++ inherited.flatten) resolved.shape
        plan := by
  obtain ⟨depth, h⟩ := h
  cases depth with
  | zero => cases h
  | succ depth =>
    rw [planWithin, bind_succeeds_iff] at h
    obtain ⟨resolved, hresolve, h⟩ := h
    rw [bind_succeeds_iff] at h
    obtain ⟨inherited, hinherited, h⟩ := h
    refine ⟨resolved, inherited, hresolve, hinherited, ?_⟩
    split at h
    next kind hshape =>
      cases h
      rw [hshape]
      exact .scalar kind
    next name hshape =>
      cases h
      rw [hshape]
      exact .struct name
    next element hshape =>
      simp only [bind_succeeds_iff, pure_succeeds_iff] at h
      obtain ⟨semantics, hsemantics, inner, hinner, rfl⟩ := h
      rw [hshape]
      exact .slice hsemantics ⟨depth, hinner⟩
    next key value hshape =>
      simp only [bind_succeeds_iff, pure_succeeds_iff] at h
      obtain ⟨keyPlan, hkey, valuePlan, hvalue, rfl⟩ := h
      rw [hshape]
      exact .map ⟨depth, hkey⟩ ⟨depth, hvalue⟩

theorem PlansAs.access_eq {shape : Shape} (h : c.PlansAs access rules shape plan) :
    plan.access = access := by
  cases h <;> rfl

theorem PlansAs.withAccess {shape : Shape} (h : c.PlansAs access rules shape plan)
    (access' : Access) : c.PlansAs access' rules shape (plan.withAccess access') := by
  cases h with
  | scalar kind => exact .scalar kind
  | struct name => exact .struct name
  | slice hsemantics hinner => exact .slice hsemantics hinner
  | map hkey hvalue => exact .map hkey hvalue

/-- The plan is one of the reference, whatever rules at it say about its lists. -/
def HasPlan (c : Compiler) (ref : TypeRef) (plan : Plan) : Prop :=
  ∃ depth here, c.planWithin depth ref here = .ok plan

theorem hasPlan_of_plan {here : List Rule} (h : c.plan ref here = .ok plan) : c.HasPlan ref plan :=
  ⟨_, here, h⟩

/-- The plan is one of a reference with this shape. -/
def PlansShape (c : Compiler) : Shape → Plan → Prop
  | .scalar kind, .scalar _ kind' => kind = kind'
  | .struct name, .struct _ name' => name = name'
  | .slice element, .list _ inner _ => c.HasPlan element inner
  | .map key value, .map _ keyPlan valuePlan => c.HasPlan key keyPlan ∧ c.HasPlan value valuePlan
  | _, _ => False

theorem PlansAs.plansShape {shape : Shape} (h : c.PlansAs access rules shape plan) :
    c.PlansShape shape plan := by
  cases h with
  | scalar kind | struct name => exact rfl
  | slice hsemantics hinner =>
    obtain ⟨depth, hinner⟩ := hinner
    exact ⟨depth, _, hinner⟩
  | map hkey hvalue =>
    obtain ⟨depth, hkey⟩ := hkey
    obtain ⟨depth', hvalue⟩ := hvalue
    exact ⟨⟨depth, _, hkey⟩, ⟨depth', _, hvalue⟩⟩

namespace HasPlan

theorem shape (h : c.HasPlan ref plan) (hresolve : c.resolve ref = .ok resolved) :
    c.PlansShape resolved.shape plan := by
  obtain ⟨depth, here, h⟩ := h
  obtain ⟨resolved', _, hresolve', -, hplans⟩ := Plans.inherited ⟨depth, h⟩
  cases hresolve'.symm.trans hresolve
  exact hplans.plansShape

theorem of_struct {name : String} (h : c.HasPlan ref plan) (hresolve : c.resolve ref = .ok resolved)
    (hshape : resolved.shape = .struct name) : ∃ access, plan = .struct access name := by
  have hplans := h.shape hresolve
  rw [hshape] at hplans
  cases plan with
  | struct access name' =>
    cases hplans
    exact ⟨access, rfl⟩
  | _ => cases hplans

theorem of_slice {element : TypeRef} (h : c.HasPlan ref plan)
    (hresolve : c.resolve ref = .ok resolved) (hshape : resolved.shape = .slice element) :
    ∃ access inner semantics, plan = .list access inner semantics ∧ c.HasPlan element inner := by
  have hplans := h.shape hresolve
  rw [hshape] at hplans
  cases plan with
  | list access inner semantics => exact ⟨access, inner, semantics, rfl, hplans⟩
  | _ => cases hplans

theorem of_map {key value : TypeRef} (h : c.HasPlan ref plan)
    (hresolve : c.resolve ref = .ok resolved) (hshape : resolved.shape = .map key value) :
    ∃ access keyPlan valuePlan, plan = .map access keyPlan valuePlan ∧ c.HasPlan key keyPlan ∧
      c.HasPlan value valuePlan := by
  have hplans := h.shape hresolve
  rw [hshape] at hplans
  cases plan with
  | map access keyPlan valuePlan => exact ⟨access, keyPlan, valuePlan, rfl, hplans⟩
  | _ => cases hplans

end HasPlan

/-! ## Structs -/

/-- The field is compiled into this one. -/
structure CompilesTo (c : Compiler) (field : FieldDef) (compiled : CompiledField) : Prop where
  jsonName : compiled.jsonName = field.jsonName
  rules : c.fieldRules field = .ok compiled.rules
  plan : c.plan field.type compiled.rules = .ok compiled.plan

theorem field_eq_ok {c : Compiler} {u v : Unions} {field : FieldDef} {compiled : CompiledField}
    (h : c.field u field = .ok (compiled, v)) :
    ∃ rules plan, c.fieldRules field = .ok rules ∧ c.plan field.type rules = .ok plan ∧
      rules.foldlM (Unions.addFieldRule field.jsonName) u = .ok v ∧
      compiled = ⟨field.name, field.jsonName, rules, plan,
        hasConstraint rules fun constraint => constraint.tag == .declarativeValidationNative,
        hasConstraint rules fun constraint => constraint.tag == .opaqueType⟩ := by
  simp only [Compiler.field, bind_succeeds_iff, pure_succeeds_iff, Prod.mk.injEq] at h
  obtain ⟨rules, hrules, plan, hplan, u', hunions, rfl, rfl⟩ := h
  exact ⟨rules, plan, hrules, hplan, hunions, rfl⟩

theorem field_compilesTo {u u' : Unions} {field : FieldDef} {compiled : CompiledField}
    (h : c.field u field = .ok (compiled, u')) : c.CompilesTo field compiled := by
  obtain ⟨rules, plan, hrules, hplan, -, rfl⟩ := field_eq_ok h
  exact ⟨rfl, hrules, hplan⟩

theorem fields_cons_eq_ok {c : Compiler} {type : String} {u v : Unions} {field : FieldDef}
    {fields : List FieldDef} {compiled : List CompiledField}
    (h : c.fields type u (field :: fields) = .ok (compiled, v)) :
    ∃ first u' others, c.field u field = .ok (first, u') ∧
      c.fields type u' fields = .ok (others, v) ∧ compiled = first :: others := by
  rw [Compiler.fields, bind_succeeds_iff] at h
  obtain ⟨⟨first, u'⟩, hfirst, h⟩ := h
  simp only [bind_succeeds_iff, pure_succeeds_iff, Prod.mk.injEq] at h
  obtain ⟨⟨others, v'⟩, hothers, rfl, rfl⟩ := h
  exact ⟨first, u', others, mapError_succeeds_iff.mp hfirst, hothers, rfl⟩

theorem fields_cons_of_ok {c : Compiler} {type : String} {u v w : Unions} {field : FieldDef}
    {fields : List FieldDef} {compiled : CompiledField} {others : List CompiledField}
    (hfield : c.field u field = .ok (compiled, v))
    (hfields : c.fields type v fields = .ok (others, w)) :
    c.fields type u (field :: fields) = .ok (compiled :: others, w) := by
  rw [Compiler.fields, hfield]
  simp only [Except.mapError, bind, Except.bind, hfields]
  rfl

theorem fields_compilesTo {type : String} {u u' : Unions} {fields : List FieldDef}
    {compiled : List CompiledField} (h : c.fields type u fields = .ok (compiled, u')) :
    List.Forall₂ c.CompilesTo fields compiled := by
  induction fields generalizing u compiled with
  | nil =>
    cases h
    exact .nil
  | cons field fields ih =>
    obtain ⟨first, u₁, others, hfirst, hothers, rfl⟩ := fields_cons_eq_ok h
    exact .cons (field_compilesTo hfirst) (ih hothers)

/-- A struct is compiled into its fields and their unions, each of which has members if it has a
discriminator. -/
theorem structBody_eq_ok_iff {c : Compiler} {type : String} {fields : List FieldDef}
    {body : CompiledStruct} :
    c.structBody type fields = .ok body ↔
      ∃ compiled u, c.fields type .empty fields = .ok (compiled, u) ∧
        u.firstWithoutMembers = none ∧ body = ⟨compiled, u.unions, u.zeroOrOne⟩ := by
  rw [structBody, bind_succeeds_iff]
  constructor
  · rintro ⟨⟨compiled, u⟩, hfields, h⟩
    simp only at h
    split at h
    · cases h
    next hmembers =>
      cases h
      exact ⟨compiled, u, hfields, hmembers, rfl⟩
  · rintro ⟨compiled, u, hfields, hmembers, rfl⟩
    exact ⟨(compiled, u), hfields, by simp only [hmembers]; rfl⟩

theorem structBody_eq_ok {c : Compiler} {type : String} {fields : List FieldDef}
    {body : CompiledStruct} (h : c.structBody type fields = .ok body) :
    ∃ u, c.fields type .empty fields = .ok (body.fields, u) ∧ body.unions = u.unions ∧
      body.zeroOrOne = u.zeroOrOne := by
  obtain ⟨compiled, u, hfields, -, rfl⟩ := structBody_eq_ok_iff.mp h
  exact ⟨u, hfields, rfl, rfl⟩

theorem structBody_compilesTo {type : String} {fields : List FieldDef} {body : CompiledStruct}
    (h : c.structBody type fields = .ok body) : List.Forall₂ c.CompilesTo fields body.fields := by
  obtain ⟨u, hfields, -, -⟩ := structBody_eq_ok h
  exact fields_compilesTo hfields

theorem exists_compiled_field {fields : List FieldDef} {compiled : List CompiledField}
    (h : List.Forall₂ c.CompilesTo fields compiled) {jsonName : String} {field : FieldDef}
    (hfield : fields.find? (fun field => field.jsonName == jsonName) = some field) :
    ∃ found, compiled.find? (fun field => field.jsonName == jsonName) = some found ∧
      c.CompilesTo field found := by
  have hrel := find?_of_forall₂ h (p := fun field => field.jsonName == jsonName)
    (q := fun field => field.jsonName == jsonName) fun a b hab => by rw [hab.jsonName]
  rcases optionRel_cases hrel with ⟨hnone, -⟩ | ⟨found, compiled, hfound, hcompiled, hcompiles⟩
  · cases hnone.symm.trans hfield
  · cases hfound.symm.trans hfield
    exact ⟨compiled, hcompiled, hcompiles⟩

/-! ## Definitions -/

/-- A definition keeps its name, its own rules and its kind. -/
theorem definition_spec {type : TypeDef} {compiled : CompiledType}
    (h : c.definition type = .ok compiled) :
    compiled.name = type.name ∧ c.typeRules type = .ok compiled.rules ∧
      ((∃ fields body, type.body = .struct fields ∧ compiled.body = .struct body ∧
          c.structBody type.name fields = .ok body) ∨
        ∃ underlying constants plan, type.body = .alias underlying constants ∧
          compiled.body = .alias plan ∧ c.plan (.named type.name) [] = .ok plan) := by
  rw [definition, bind_succeeds_iff] at h
  obtain ⟨rules, hrules, h⟩ := h
  rw [mapError_succeeds_iff] at hrules
  split at h
  next fields hfields =>
    rw [bind_succeeds_iff] at h
    obtain ⟨compiledBody, hcompiled, h⟩ := h
    obtain ⟨body, hbody, rfl⟩ := map_succeeds_iff.mp hcompiled
    cases h
    exact ⟨rfl, hrules, .inl ⟨fields, body, hfields, rfl, hbody⟩⟩
  next underlying constants halias =>
    rw [bind_succeeds_iff] at h
    obtain ⟨compiledBody, hcompiled, h⟩ := h
    obtain ⟨plan, hplan, rfl⟩ := map_succeeds_iff.mp hcompiled
    cases h
    exact ⟨rfl, hrules, .inr ⟨underlying, constants, plan, halias, rfl,
      mapError_succeeds_iff.mp hplan⟩⟩

theorem definition_of_struct {type : TypeDef} {rules : List Rule} {fields : List FieldDef}
    {body : CompiledStruct} (hrules : c.typeRules type = .ok rules)
    (htype : type.body = .struct fields) (hbody : c.structBody type.name fields = .ok body) :
    c.definition type = .ok ⟨type.name, rules, .struct body⟩ := by
  rw [definition, hrules, htype]
  simp only [hbody]
  rfl

theorem definition_of_alias {type : TypeDef} {rules : List Rule} {underlying : TypeRef}
    {constants : List ConstantDef} {plan : Plan} (hrules : c.typeRules type = .ok rules)
    (htype : type.body = .alias underlying constants)
    (hplan : c.plan (.named type.name) [] = .ok plan) :
    c.definition type = .ok ⟨type.name, rules, .alias plan⟩ := by
  rw [definition, hrules, htype]
  simp only [hplan]
  rfl

theorem definition_name {type : TypeDef} {compiled : CompiledType}
    (h : c.definition type = .ok compiled) : compiled.name = type.name :=
  (definition_spec h).1

theorem definition_fields {type : TypeDef} {compiled : CompiledType} {body : CompiledStruct}
    (h : c.definition type = .ok compiled) (hbody : compiled.body = .struct body) :
    List.Forall₂ c.CompilesTo type.fields body.fields := by
  obtain ⟨-, -, ⟨fields, body', hfields, hbody', hstruct⟩ | ⟨_, _, plan, -, halias, -⟩⟩ :=
    definition_spec h
  · cases hbody.symm.trans hbody'
    rw [TypeDef.fields, hfields]
    exact structBody_compilesTo hstruct
  · cases hbody.symm.trans halias

theorem definition_struct {type : TypeDef} {compiled : CompiledType} {fields : List FieldDef}
    (h : c.definition type = .ok compiled) (hfields : type.body = .struct fields) :
    ∃ body, compiled.body = .struct body := by
  obtain ⟨-, -, ⟨_, body, -, hbody, -⟩ | ⟨_, _, _, halias, -, -⟩⟩ := definition_spec h
  · exact ⟨body, hbody⟩
  · cases hfields.symm.trans halias

end Compiler

/-! ## The rules of a schema -/

def CompiledType.Body.rules : CompiledType.Body → List Rule
  | .struct body => body.fields.flatMap CompiledField.rules
  | .alias _ => []

/-- All rules in a schema, those of types and those of fields. -/
def Schema.rules (schema : Schema) : List Rule :=
  schema.entries.flatMap fun type => type.rules ++ type.body.rules

theorem Schema.get?_of_struct? {schema : Schema} {name : String} {body : CompiledStruct}
    (h : schema.struct? name = some body) :
    ∃ type, schema.get? name = some type ∧ type.name = name ∧ type.body = .struct body := by
  simp only [Schema.struct?, Option.bind_eq_bind, Option.bind_eq_some_iff] at h
  obtain ⟨type, hget, h⟩ := h
  split at h
  next body' hbody =>
    cases h
    exact ⟨type, hget, Catalog.name_of_findEntry hget, hbody⟩
  next => cases h

theorem Schema.mem_rules_of_type {schema : Schema} {name : String} {type : CompiledType}
    (htype : schema.get? name = some type) {rule : Rule} (hrule : rule ∈ type.rules) :
    rule ∈ schema.rules :=
  List.mem_flatMap.mpr ⟨type, Catalog.mem_of_get? htype, List.mem_append_left _ hrule⟩

theorem Schema.mem_rules_of_field {schema : Schema} {name : String} {body : CompiledStruct}
    (hbody : schema.struct? name = some body) {field : CompiledField} (hfield : field ∈ body.fields)
    {rule : Rule} (hrule : rule ∈ field.rules) : rule ∈ schema.rules := by
  obtain ⟨type, htype, -, htypeBody⟩ := Schema.get?_of_struct? hbody
  have hmem : rule ∈ type.body.rules := by
    rw [htypeBody]
    exact List.mem_flatMap.mpr ⟨field, hfield, hrule⟩
  exact List.mem_flatMap.mpr ⟨type, Catalog.mem_of_get? htype, List.mem_append_right _ hmem⟩

/-! ## Whole universes -/

section

variable {types : Universe} {options : Options} {name : String}

/-- The types of a schema are the definitions that have not been rejected. -/
theorem definition_of_mem_schema {compiled : CompiledType}
    (h : compiled ∈ (compile types options).schema.entries) :
    ∃ type ∈ types.entries, Compiler.definition ⟨types, options⟩ type = .ok compiled := by
  obtain ⟨result, hresult, hcompiled⟩ := List.mem_filterMap.mp (Catalog.mem_ofEntries h)
  obtain ⟨type, htype, rfl⟩ := List.mem_map.mp hresult
  refine ⟨type, htype, ?_⟩
  cases hdefinition : Compiler.definition ⟨types, options⟩ type with
  | ok found =>
    rw [hdefinition] at hcompiled
    cases hcompiled
    rfl
  | error error =>
    rw [hdefinition] at hcompiled
    cases hcompiled

theorem definition_of_isOk (hok : (compile types options).isOk = true) {type : TypeDef}
    (htype : type ∈ types.entries) :
    ∃ compiled, Compiler.definition ⟨types, options⟩ type = .ok compiled := by
  cases hdefinition : Compiler.definition ⟨types, options⟩ type with
  | ok compiled => exact ⟨compiled, rfl⟩
  | error error =>
    have hmem : error ∈ (compile types options).errors :=
      List.mem_filterMap.mpr ⟨.error error, List.mem_map.mpr ⟨type, htype, hdefinition⟩, rfl⟩
    rw [Compilation.isOk, List.isEmpty_iff] at hok
    rw [hok] at hmem
    cases hmem

/-- Without a rejected definition there is no error. -/
theorem isOk_of_definitions (h : ∀ type ∈ types.entries,
    ∃ compiled, Compiler.definition ⟨types, options⟩ type = .ok compiled) :
    (compile types options).isOk = true := by
  rw [Compilation.isOk, List.isEmpty_iff, compile, List.filterMap_eq_nil_iff]
  intro result hresult
  obtain ⟨type, htype, rfl⟩ := List.mem_map.mp hresult
  obtain ⟨compiled, hcompiled⟩ := h type htype
  rw [hcompiled]
  rfl

/-- Definitions keep their names, so that filing them changes nothing. -/
theorem schema_entries : (compile types options).schema.entries =
    types.entries.filterMap fun type =>
      (Compiler.definition ⟨types, options⟩ type).toOption := by
  have hentries : (types.entries.map (Compiler.definition ⟨types, options⟩)).filterMap
      Except.toOption = types.entries.filterMap fun type =>
        (Compiler.definition ⟨types, options⟩ type).toOption := by
    rw [List.filterMap_map]
    rfl
  have hname (type : TypeDef) (compiled : CompiledType)
      (h : (Compiler.definition ⟨types, options⟩ type).toOption = some compiled) :
      compiled.name = type.name := by
    cases hdefinition : Compiler.definition ⟨types, options⟩ type with
    | ok found =>
      rw [hdefinition] at h
      cases h
      exact Compiler.definition_name hdefinition
    | error error =>
      rw [hdefinition] at h
      cases h
  have hsorted : Catalog.Sorted CompiledType.name (types.entries.filterMap fun type =>
      (Compiler.definition ⟨types, options⟩ type).toOption) := by
    rw [Catalog.Sorted, List.pairwise_filterMap]
    apply types.sorted.imp
    intro a b hlt compiled hcompiled compiled' hcompiled'
    rw [hname a compiled hcompiled, hname b compiled' hcompiled']
    exact hlt
  change Catalog.ofEntries _ _ = _
  rw [hentries, Catalog.ofEntries_of_sorted hsorted]

theorem schema_get?_eq_some_iff {type : TypeDef} (htype : types.get? name = some type)
    {compiled : CompiledType} :
    (compile types options).schema.get? name = some compiled ↔
      Compiler.definition ⟨types, options⟩ type = .ok compiled := by
  have hmem : type ∈ types.entries := Catalog.mem_of_get? htype
  constructor
  · intro hget
    obtain ⟨type', hmem', hcompiled⟩ := definition_of_mem_schema (Catalog.mem_of_get? hget)
    have hfind := Catalog.findEntry_of_mem types.sorted hmem'
    rw [← Compiler.definition_name hcompiled, Catalog.name_of_findEntry hget] at hfind
    cases htype.symm.trans hfind
    exact hcompiled
  · intro hcompiled
    have hentry : compiled ∈ (compile types options).schema.entries := by
      rw [schema_entries]
      exact List.mem_filterMap.mpr ⟨type, hmem, by rw [hcompiled]; rfl⟩
    have hfind := Catalog.findEntry_of_mem (compile types options).schema.sorted hentry
    rw [Compiler.definition_name hcompiled, Catalog.name_of_findEntry htype] at hfind
    exact hfind

theorem get?_of_isOk (hok : (compile types options).isOk = true) {type : TypeDef}
    (htype : types.get? name = some type) :
    ∃ compiled, (compile types options).schema.get? name = some compiled ∧
      Compiler.definition ⟨types, options⟩ type = .ok compiled := by
  obtain ⟨compiled, hcompiled⟩ := definition_of_isOk hok (Catalog.mem_of_get? htype)
  exact ⟨compiled, (schema_get?_eq_some_iff htype).mpr hcompiled, hcompiled⟩

/-- Nothing is in a schema without a definition. -/
theorem schema_get?_eq_none (htype : types.get? name = none) :
    (compile types options).schema.get? name = none := by
  cases hget : (compile types options).schema.get? name with
  | none => rfl
  | some compiled =>
    obtain ⟨type, hmem, hcompiled⟩ := definition_of_mem_schema (Catalog.mem_of_get? hget)
    have hfind := Catalog.findEntry_of_mem types.sorted hmem
    rw [← Compiler.definition_name hcompiled, Catalog.name_of_findEntry hget] at hfind
    cases htype.symm.trans hfind

/-- A struct has its fields in the schema. -/
theorem struct?_of_isOk (hok : (compile types options).isOk = true) {type : TypeDef}
    {fields : List FieldDef} (htype : types.get? name = some type)
    (hfields : type.body = .struct fields) :
    ∃ body, (compile types options).schema.struct? name = some body ∧
      List.Forall₂ (Compiler.CompilesTo ⟨types, options⟩) fields body.fields := by
  obtain ⟨compiled, hget, hcompiled⟩ := get?_of_isOk hok htype
  obtain ⟨body, hbody⟩ := Compiler.definition_struct hcompiled hfields
  have hfields' := Compiler.definition_fields hcompiled hbody
  rw [TypeDef.fields, hfields] at hfields'
  refine ⟨body, ?_, hfields'⟩
  simp [Schema.struct?, hget, hbody]

/-- The fields of a struct in the schema are those of its definition, in their order. -/
theorem fields_of_struct? {body : CompiledStruct}
    (h : (compile types options).schema.struct? name = some body) :
    ∃ type, types.get? name = some type ∧
      List.Forall₂ (Compiler.CompilesTo ⟨types, options⟩) type.fields body.fields := by
  obtain ⟨compiled, hget, hname, hbody⟩ := Schema.get?_of_struct? h
  obtain ⟨type, hmem, hcompiled⟩ := definition_of_mem_schema (Catalog.mem_of_get? hget)
  have htype := Catalog.findEntry_of_mem types.sorted hmem
  rw [← Compiler.definition_name hcompiled, hname] at htype
  exact ⟨type, htype, Compiler.definition_fields hcompiled hbody⟩

theorem structBody_of_struct? {body : CompiledStruct}
    (h : (compile types options).schema.struct? name = some body) :
    ∃ type fields, Compiler.structBody ⟨types, options⟩ type fields = .ok body := by
  obtain ⟨compiled, hget, -, hbody⟩ := Schema.get?_of_struct? h
  obtain ⟨type, -, hcompiled⟩ := definition_of_mem_schema (Catalog.mem_of_get? hget)
  obtain ⟨-, -, ⟨fields, body', -, hbody', hstruct⟩ | ⟨_, _, plan, -, halias, -⟩⟩ :=
    Compiler.definition_spec hcompiled
  · cases hbody.symm.trans hbody'
    exact ⟨type.name, fields, hstruct⟩
  · cases hbody.symm.trans halias

theorem compilesTo_of_struct? {body : CompiledStruct}
    (h : (compile types options).schema.struct? name = some body) {field : CompiledField}
    (hfield : field ∈ body.fields) :
    ∃ definition, Compiler.CompilesTo ⟨types, options⟩ definition field := by
  obtain ⟨type, -, hfields⟩ := fields_of_struct? h
  obtain ⟨definition, -, hdefinition⟩ := exists_of_forall₂ hfields hfield
  exact ⟨definition, hdefinition⟩

end

end TaggedSchema
