import TaggedSchema.Proofs.Schema.Inlining
import TaggedSchema.Proofs.Validation.Comparison

/-!
# Validating without an alias

A rule finds the same at a field whether the field has the rule itself or an alias lends it. So an
alias may be left out where it stands in a field, if the field takes its tags.
-/

namespace TaggedSchema

variable {lender : String} {lent : List Rule} {schema schema' : Schema} {gates : GateView}

theorem Schema.Inlined.struct? (h : Schema.Inlined lender lent schema schema') (name : String) :
    Option.Rel (CompiledStruct.Inlined lender lent) (schema.struct? name)
      (schema'.struct? name) := by
  rcases optionRel_cases (h.types name) with ⟨hget, hget'⟩ | ⟨type, type', hget, hget', htype⟩
  · simp only [Schema.struct?, hget, hget', Option.bind_eq_bind, Option.bind_none]
    exact .none
  · simp only [Schema.struct?, hget, hget', Option.bind_eq_bind, Option.bind_some]
    have hbody := htype.body
    generalize type.body = body, type'.body = body' at hbody ⊢
    cases hbody with
    | struct hstruct => exact .some hstruct
    | plan plan => exact .none

theorem CompiledStruct.Inlined.field? {body body' : CompiledStruct}
    (h : CompiledStruct.Inlined lender lent body body') (jsonName : String) :
    Option.Rel (CompiledField.Inlined lender lent) (body.field? jsonName)
      (body'.field? jsonName) :=
  find?_of_forall₂ h.fields fun field field' hfield => by cases hfield <;> rfl

theorem Schema.Inlined.field? (h : Schema.Inlined lender lent schema schema')
    (name jsonName : String) :
    Option.Rel (CompiledField.Inlined lender lent)
      ((schema.struct? name).bind fun body => body.field? jsonName)
      ((schema'.struct? name).bind fun body => body.field? jsonName) := by
  rcases optionRel_cases (h.struct? name) with ⟨hget, hget'⟩ | ⟨body, body', hget, hget', hbody⟩
  · rw [hget, hget']
    exact .none
  · rw [hget, hget']
    exact hbody.field? jsonName

namespace Context

/-! ## Sites where the same is found -/

/-- At the sites the same rules apply, wherever they come from, and the same stops a walk. -/
structure Alike (c c' : Context) (site site' : Site) : Prop where
  relocated : ∃ rules named, site' = site.relocate rules named
  rulesAt : c'.rulesAt site' = c.rulesAt site
  blocked (value : Value) : site'.blocked? value (c'.ownConstraints site') =
    site.blocked? value (c.ownConstraints site)

/-- The walks over the value find the same from all such sites on. -/
def WalksAlike (c c' : Context) (value : Value) : Prop :=
  ∀ site site', Alike c c' site site' → c'.walk value site' = c.walk value site

variable (h : Schema.Inlined lender lent schema schema')

include h

/-! ## Rules that are lent -/

theorem lentRules_inlined (named : List String) :
    Context.lentRules ⟨schema', gates⟩ named = Context.lentRules ⟨schema, gates⟩ named := by
  rw [lentRules, lentRules]
  congr 1
  funext name
  rcases optionRel_cases (h.types name) with ⟨hget, hget'⟩ | ⟨type, type', hget, hget', htype⟩
  · rw [hget, hget']
  · simp only [hget, hget', htype.rules]

theorem lentRules_cons (named : List String) :
    Context.lentRules ⟨schema, gates⟩ (lender :: named) =
      activeRules gates lent ++ Context.lentRules ⟨schema, gates⟩ named := by
  obtain ⟨type, htype, rfl⟩ := h.lends
  rw [lentRules, List.flatMap_cons]
  simp only [htype]
  rfl

/-! ## Places where the same is found -/

theorem alike_self (site : Site) : Alike ⟨schema, gates⟩ ⟨schema', gates⟩ site site where
  relocated := ⟨site.rules, site.plan.access.named, by rw [Site.relocate, Plan.withNamed_self]⟩
  rulesAt := by simp only [rulesAt, lentRules_inlined h]
  blocked _ := rfl

omit h in
theorem alike_shallow {site : Site} (hshallow : site.isShallow = true) (named : List String) :
    Alike ⟨schema, gates⟩ ⟨schema', gates⟩ site (site.relocate site.rules named) where
  relocated := ⟨site.rules, named, rfl⟩
  rulesAt := by
    have hshallow' : (site.relocate site.rules named).isShallow = true := hshallow
    rw [rulesAt, rulesAt, hshallow, hshallow']
    rfl
  blocked value := by
    rw [Site.blocked?_relocate]
    rfl

/-- The rules of an alias apply behind those of the place, whoever has them. -/
theorem alike_lent {site : Site} (hdeep : site.isShallow = false) {named : List String}
    (hnamed : site.plan.access.named = lender :: named) :
    Alike ⟨schema, gates⟩ ⟨schema', gates⟩ site (site.relocate (site.rules ++ lent) named) where
  relocated := ⟨_, named, rfl⟩
  rulesAt := by
    have hdeep' : (site.relocate (site.rules ++ lent) named).isShallow = false := hdeep
    have hnamed' : (site.relocate (site.rules ++ lent) named).plan.access.named = named :=
      site.plan.withNamed_named named
    rw [rulesAt, rulesAt, hdeep, hdeep', hnamed, hnamed', lentRules_inlined h, lentRules_cons h,
      ← List.append_assoc]
    simp only [Bool.false_eq_true, if_false, Site.relocate, activeRules, List.filterMap_append]
  blocked value := by
    rw [Site.blocked?_relocate]
    -- The constraints of an alias are new among those of the place, but none of them stops a walk.
    have hown : ownConstraints ⟨schema', gates⟩ (site.relocate (site.rules ++ lent) named) =
        ownConstraints ⟨schema, gates⟩ site ++
          (activeRules gates lent).filterMap Rule.constraint? := by
      simp only [ownConstraints, Site.relocate, activeRules, List.filterMap_append]
    have hclear (constraint : Constraint)
        (hconstraint : constraint ∈ (activeRules gates lent).filterMap Rule.constraint?) :
        ¬constraint.isShortCircuit = true :=
      Bool.eq_false_iff.mp (h.clear gates constraint hconstraint)
    apply Site.blocked?_congr
    rw [hown, List.filter_append, List.filter_eq_nil_iff.mpr hclear, List.append_nil]

theorem alike_subfield {field field' : CompiledField}
    (hfield : CompiledField.Inlined lender lent field field') (site : Site) (rule : Rule) :
    Alike ⟨schema, gates⟩ ⟨schema', gates⟩ (site.field field [rule] true)
      (site.field field' [rule] true) := by
  cases hfield with
  | same => exact alike_self h _
  | @inlined named hnamed hdeep =>
    exact @alike_shallow _ _ _ (site.field field [rule] true) rfl named

theorem alike_field {field field' : CompiledField}
    (hfield : CompiledField.Inlined lender lent field field') (site : Site) :
    Alike ⟨schema, gates⟩ ⟨schema', gates⟩ (site.field field field.rules field.isOpaque)
      (site.field field' field'.rules field'.isOpaque) := by
  cases hfield with
  | same => exact alike_self h _
  | @inlined named hnamed hdeep =>
    exact alike_lent h hdeep hnamed

/-! ## Walks -/

variable {value : Value}

theorem placeViolations_alike
    (ih : ∀ inner, inner.LiesIn value → WalksAlike ⟨schema, gates⟩ ⟨schema', gates⟩ inner)
    (site : Site) (rules : List Rule) (named : List String) (place : Place) (rule : Rule) :
    Context.placeViolations ⟨schema', gates⟩ value (site.relocate rules named) place rule =
      Context.placeViolations ⟨schema, gates⟩ value site place rule := by
  cases place with
  | subfield name =>
    apply composes_eq.subfield ih ⟨rules, named, rfl⟩
    intro access type hplan
    rcases optionRel_cases (h.field? type name) with
      ⟨hget, hget'⟩ | ⟨field, field', hget, hget', hfield⟩
    · rw [hget, hget']
      exact .none
    · rw [hget, hget']
      exact .some (alike_subfield h hfield site rule)
  | item selector =>
    apply composes_eq.item ih ⟨rules, named, rfl⟩
    intro access element semantics hplan path
    exact alike_self h _
  | eachVal | eachKey => simp only [placeViolations]

theorem structs_alike {site site' : Site} {body body' : CompiledStruct}
    (hrelocated : ∃ rules named, site' = site.relocate rules named)
    (hbody : CompiledStruct.Inlined lender lent body body') :
    StructsMeet (Alike ⟨schema, gates⟩ ⟨schema', gates⟩) site site' body body' where
  unions := hbody.unions
  zeroOrOne := hbody.zeroOrOne
  fields := by
    obtain ⟨rules, named, rfl⟩ := hrelocated
    apply hbody.fields.imp
    intro field field' hfield
    exact ⟨by cases hfield <;> rfl, alike_field h hfield site⟩

/-- From alike sites on the same is found. -/
theorem comparison_inlined : Comparison ⟨schema, gates⟩ ⟨schema', gates⟩
    (Alike ⟨schema, gates⟩ ⟨schema', gates⟩) fun found found' => found' = found where
  toComposes := composes_eq
  place halike := halike.relocated
  blocked halike value := by
    obtain ⟨⟨rules, named, rfl⟩, -, hblocked⟩ := halike
    rw [← hblocked, Site.blocked?_relocate]
  mismatch halike value := by rw [halike.rulesAt]
  rules ih site site' halike := by
    obtain ⟨⟨rules, named, rfl⟩, hrulesAt, -⟩ := halike
    rw [hrulesAt]
    congr 1
    funext rule
    cases rule with
    | leaf constraint tag => rfl
    | within place inner tag => exact placeViolations_alike h ih site rules named place inner
    | guarded condition inner tag => rfl
  struct halike _ _ name _ := by
    rcases optionRel_cases (h.struct? name) with ⟨hget, hget'⟩ | ⟨body, body', hget, hget', hbody⟩
    · rw [hget, hget']
      exact .none
    · rw [hget, hget']
      exact .some (structs_alike h halike.relocated hbody)
  element halike _ _ _ _ _ _ _ := by
    obtain ⟨⟨rules, named, rfl⟩, hrulesAt, -⟩ := halike
    rw [hrulesAt]
    exact alike_self h _
  entry halike _ _ _ _ _ _ := by
    obtain ⟨⟨rules, named, rfl⟩, hrulesAt, -⟩ := halike
    rw [hrulesAt]
    exact alike_self h _
  key {site site'} halike _ _ key _ _ name ih := by
    obtain ⟨⟨rules, named, rfl⟩, hrulesAt, -⟩ := halike
    rw [hrulesAt, keyViolations, keyViolations]
    congr 1
    exact ih _ _ (alike_self h _)

theorem walksAlike (value : Value) : WalksAlike ⟨schema, gates⟩ ⟨schema', gates⟩ value :=
  (comparison_inlined h).tallies value

end Context

/-- Without the alias, every object has the violations that it had. -/
theorem Schema.Inlined.validate_eq (h : Schema.Inlined lender lent schema schema') (name : String)
    (gates : GateView) (new : Value) (old : Option Value) :
    validate schema' name gates new old = validate schema name gates new old := by
  rcases optionRel_cases (h.types name) with ⟨hget, hget'⟩ | ⟨type, type', hget, hget', htype⟩
  · rw [validate, validate, Schema.type, Schema.type, hget, hget']
    rfl
  · have hplan : type'.plan = type.plan := by
      have hbody := htype.body
      rw [CompiledType.plan, CompiledType.plan, htype.name]
      generalize type.body = body, type'.body = body' at hbody ⊢
      cases hbody <;> rfl
    have hviolations : type'.violations schema' gates new old =
        type.violations schema gates new old := by
      rw [CompiledType.violations, CompiledType.violations, hplan]
      exact Context.walksAlike h new _ _ (Context.alike_self h _)
    simp only [validate, Schema.type, hget, hget', Except.map, hviolations]

/-- A field whose type is an alias may have what the alias stands for as its type and the tags of
the alias behind its own. If both compile, every object of every type has the same violations, in
the same order. The field must not be opaque, and no tag of the alias may depend on where it is
attached: an enumeration has its constants from the alias, and members of a union have the names of
their fields. -/
theorem validate_inlined {types : Universe} {options : Options} (a : AliasField types)
    (hok : (compile types options).isOk = true) (hok' : (compile a.inlined options).isOk = true)
    (htransparent : ∀ rules, Compiler.fieldRules ⟨types, options⟩ a.field = .ok rules →
      hasConstraint rules (fun constraint => constraint.tag == .opaqueType) = false)
    (hportable : ∀ rules, Compiler.typeRules ⟨types, options⟩ a.aliasType = .ok rules →
      ∀ rule ∈ rules, rule.isPortable = true)
    (name : String) (gates : GateView) (new : Value) (old : Option Value) :
    validate (compile a.inlined options).schema name gates new old =
      validate (compile types options).schema name gates new old := by
  obtain ⟨compiled, -, hcompiled⟩ := get?_of_isOk hok a.alias_known
  obtain ⟨-, hlent, -⟩ := Compiler.definition_spec hcompiled
  have hinlined := schema_inlined hok hok' hlent (hportable _ hlent) htransparent
  exact hinlined.validate_eq name gates new old

/-- The ports of a pod may have to be few. -/
def portsField : FieldDef :=
  ⟨"Ports", none, .named "Ports", ["+k8s:ifEnabled(Few)=+k8s:maxItems=2"]⟩

/-- Ports have different short names. -/
def portsType : TypeDef :=
  ⟨"Ports", ["+k8s:listType=map", "+k8s:listMapKey=name",
    "+k8s:eachVal=+k8s:subfield(name)=+k8s:maxLength=2"], .alias (.slice (.named "Port")) []⟩

def podTypes : Universe := Catalog.ofList
  [⟨"Pod", [], .struct [portsField]⟩,
    ⟨"Port", [], .struct [⟨"Name", none, .scalar .string, []⟩]⟩, portsType]

/-- The ports of a pod, whose type is an alias. -/
def podPorts : AliasField podTypes where
  owner := ⟨"Pod", [], .struct [portsField]⟩
  before := []
  field := portsField
  after := []
  aliasType := portsType
  underlying := .slice (.named "Port")
  constants := []
  owner_known := by rfl
  owner_body := rfl
  alias_known := by rfl
  alias_body := rfl
  field_type := rfl

/-- A pod with ports of these names. -/
def podOf (names : List String) : Value :=
  .ofMembers [("ports", .array (names.map fun name => .ofMembers [("name", .string name)]))]

theorem validate_inlined_ports :
    (compile podTypes .default).isOk = true ∧ (compile podPorts.inlined .default).isOk = true ∧
      (∀ rules, Compiler.fieldRules ⟨podTypes, .default⟩ podPorts.field = .ok rules →
        hasConstraint rules (fun constraint => constraint.tag == .opaqueType) = false) ∧
      (∀ rules, Compiler.typeRules ⟨podTypes, .default⟩ podPorts.aliasType = .ok rules →
        ∀ rule ∈ rules, rule.isPortable = true) ∧
      ∃ violations, violations.length = 3 ∧
        validate (compile podTypes .default).schema "Pod" (fun _ => true)
          (podOf ["a", "a", "abc"]) none = .ok violations ∧
        validate (compile podPorts.inlined .default).schema "Pod" (fun _ => true)
          (podOf ["a", "a", "abc"]) none = .ok violations := by
  have hok : (compile podTypes .default).isOk = true := by
    decide +kernel
  have hok' : (compile podPorts.inlined .default).isOk = true := by
    decide +kernel
  have htransparent (rules : List Rule)
      (hrules : Compiler.fieldRules ⟨podTypes, .default⟩ podPorts.field = .ok rules) :
      hasConstraint rules (fun constraint => constraint.tag == .opaqueType) = false := by
    have hall : (Compiler.fieldRules ⟨podTypes, .default⟩ podPorts.field).toOption.all
        (fun rules => !hasConstraint rules fun constraint => constraint.tag == .opaqueType) =
          true := by
      decide +kernel
    simpa [hrules, Except.toOption] using hall
  have hportable (rules : List Rule)
      (hrules : Compiler.typeRules ⟨podTypes, .default⟩ podPorts.aliasType = .ok rules) :
      ∀ rule ∈ rules, rule.isPortable = true := by
    have hall : (Compiler.typeRules ⟨podTypes, .default⟩ podPorts.aliasType).toOption.all
        (fun rules => rules.all Rule.isPortable) = true := by
      decide +kernel
    simpa [hrules, Except.toOption] using hall
  have hfound : (validate (compile podTypes .default).schema "Pod" (fun _ => true)
      (podOf ["a", "a", "abc"]) none).toOption.map List.length = some 3 := by
    decide +kernel
  have hsame := validate_inlined podPorts hok hok' htransparent hportable "Pod" (fun _ => true)
    (podOf ["a", "a", "abc"]) none
  cases hviolations : validate (compile podTypes .default).schema "Pod" (fun _ => true)
      (podOf ["a", "a", "abc"]) none with
  | error error =>
    rw [hviolations] at hfound
    cases hfound
  | ok violations =>
    rw [hviolations] at hfound hsame
    exact ⟨hok, hok', htransparent, hportable, violations, Option.some.inj hfound, rfl, hsame⟩

end TaggedSchema
