import TaggedSchema.Proofs.Rule.Accepted

/-!
# The types of rules

When a rule is about the values of a type. It is said of the universe alone, without the builder,
and the builder builds no other rules, at whatever depth.
-/

namespace TaggedSchema

namespace Universe

variable (types : Universe)

/-- The reference leads to this shape. -/
def HasShape (target : TypeRef) (shape : Shape) : Prop :=
  ∃ resolved, types.resolve target = .ok resolved ∧ resolved.shape = shape

/-- The reference leads to the struct that this definition declares. -/
def IsStruct (target : TypeRef) (type : TypeDef) : Prop :=
  ∃ name, types.HasShape target (.struct name) ∧ types.get? name = some type

def IsList (target : TypeRef) : Prop :=
  ∃ element, types.HasShape target (.slice element)

/-- The reference leads to a list of the structs that this definition declares. -/
def IsListOf (target : TypeRef) (type : TypeDef) : Prop :=
  ∃ element, types.HasShape target (.slice element) ∧ types.IsStruct element type

/-- The reference is the name of an alias that leads to a string. -/
def IsStringAlias (target : TypeRef) : Prop :=
  ∃ name type underlying constants, target = .named name ∧ types.get? name = some type ∧
    type.body = .alias underlying constants ∧ types.HasShape underlying (.scalar .string)

end Universe

/-- The value is one of this domain, up to the widths and signs of integers. Numbers are compared
with integers only. -/
def ScalarKind.Holds : ScalarKind → Value → Prop
  | string, value => ∃ text, value = .string text
  | int, value | uint, value | float, value => ∃ n, value = Value.ofInt n
  | bool, value => ∃ b, value = .bool b

namespace Constraint

/-- The constraint is about the values of this type. -/
def Suits (types : Universe) (target : TypeRef) : Constraint → Prop
  | minimum _ => ∃ kind, types.HasShape target (.scalar kind) ∧ kind.isInteger = true
  | maxLength _ | format _ | unionDiscriminator _ => types.HasShape target (.scalar .string)
  | maxItems _ | customUnique => types.IsList target
  | maxProperties _ => ∃ key value, types.HasShape target (.map key value)
  | listType kind => types.IsList target ∧ (kind = .map → ∃ type, types.IsListOf target type)
  | unique mode => types.IsList target ∧ (mode = .map → ∃ type, types.IsListOf target type)
  | listMapKey name =>
    ∃ type field, types.IsListOf target type ∧ type.field? name = some field
  | differs value => ∃ kind, types.HasShape target (.scalar kind) ∧ kind.Holds value
  | enumeration _ => types.IsStringAlias target
  | required | optional | forbidden | immutable | restriction _ | enumExclude | unionMember ..
  | zeroOrOneOf .. | opaqueType | native => True

/-- Whether the constraint decides what is compiled, and so may not depend on gates. -/
def isSettled (constraint : Constraint) : Bool :=
  constraint.isListMetadata || constraint.isUnionMarker ||
    match constraint with
    | enumeration _ | opaqueType | native => true
    | _ => false

end Constraint

/-- The rule is about the values of this type, and so are the rules in it about the values that it
leads to. `conditional` says that there is a condition in front of the rule. -/
inductive Rule.WellTyped (types : Universe) :
    (conditional : Bool) → (target : TypeRef) → Rule → Prop where
  | leaf {conditional : Bool} {target : TypeRef} {constraint : Constraint} {tag : String}
      (hsuits : constraint.Suits types target)
      (hsettled : constraint.isSettled = true → conditional = false) :
      WellTyped types conditional target (.leaf constraint tag)
  | guarded {conditional : Bool} {target : TypeRef} {condition : Condition} {inner : Rule}
      {tag : String} (hinner : WellTyped types true target inner) :
      WellTyped types conditional target (.guarded condition inner tag)
  | element {conditional : Bool} {target element : TypeRef} {inner : Rule} {tag : String}
      (hlist : types.HasShape target (.slice element))
      (hinner : WellTyped types conditional element inner) :
      WellTyped types conditional target (.within .eachVal inner tag)
  | entry {conditional : Bool} {target key value : TypeRef} {inner : Rule} {tag : String}
      (hmap : types.HasShape target (.map key value))
      (hinner : WellTyped types conditional value inner) :
      WellTyped types conditional target (.within .eachVal inner tag)
  | key {conditional : Bool} {target key value : TypeRef} {inner : Rule} {tag : String}
      (hmap : types.HasShape target (.map key value))
      (hinner : WellTyped types conditional key inner) :
      WellTyped types conditional target (.within .eachKey inner tag)
  | subfield {conditional : Bool} {target : TypeRef} {type : TypeDef} {jsonName : String}
      {field : FieldDef} {inner : Rule} {tag : String} (hstruct : types.IsStruct target type)
      (hfield : type.field? jsonName = some field)
      (hinner : WellTyped types conditional field.type inner) :
      WellTyped types conditional target (.within (.subfield jsonName) inner tag)
  | item {conditional : Bool} {target element : TypeRef} {type : TypeDef}
      {selector : ItemSelector} {inner : Rule} {tag : String}
      (hlist : types.HasShape target (.slice element)) (hstruct : types.IsStruct element type)
      (hkeys : ∀ key ∈ selector.keys, ∃ field, type.field? key.1 = some field)
      (hinner : WellTyped types conditional element inner) :
      WellTyped types conditional target (.within (.item selector) inner tag)

namespace Compiler

variable {c : Compiler} {tag : Tag} {target : TypeRef} {around : Surroundings}

/-! ## Shapes that the builder asks for -/

theorem hasShape_of_resolve {resolved : Resolved} {shape : Shape}
    (h : c.resolve target = .ok resolved) (hshape : resolved.shape = shape) :
    c.types.HasShape target shape :=
  ⟨resolved, mapError_succeeds_iff.mp h, hshape⟩

theorem hasShape_of_expect {expected : Target} {fits : Shape → Bool}
    (h : c.expect tag target expected fits = .ok ()) :
    ∃ shape, c.types.HasShape target shape ∧ fits shape = true := by
  rw [expect, bind_succeeds_iff] at h
  obtain ⟨resolved, hresolve, h⟩ := h
  refine ⟨resolved.shape, hasShape_of_resolve hresolve rfl, ?_⟩
  by_contra hfits
  simp only at h
  rw [if_neg hfits] at h
  cases h

theorem isString_of_expect (h : c.expect tag target .string Shape.isString = .ok ()) :
    c.types.HasShape target (.scalar .string) := by
  obtain ⟨shape, hshape, hfits⟩ := hasShape_of_expect h
  cases shape with
  | scalar kind =>
    cases kind with
    | string => exact hshape
    | _ => cases hfits
  | _ => cases hfits

theorem isStruct_of_struct {type : TypeDef} (h : c.struct tag target = .ok type) :
    c.types.IsStruct target type := by
  obtain ⟨resolved, name, hresolve, hshape, htype⟩ := struct_eq_ok h
  exact ⟨name, hasShape_of_resolve hresolve hshape, htype⟩

theorem hasShape_of_element {element : TypeRef} (h : c.element tag target = .ok element) :
    c.types.HasShape target (.slice element) := by
  obtain ⟨resolved, hresolve, hshape⟩ := element_eq_ok h
  exact hasShape_of_resolve hresolve hshape

theorem isListOf_of_elementStruct {type : TypeDef} (h : c.elementStruct tag target = .ok type) :
    c.types.IsListOf target type := by
  rw [elementStruct, bind_succeeds_iff] at h
  obtain ⟨resolved, hresolve, h⟩ := h
  simp only at h
  split at h
  next element hshape =>
    exact ⟨element, hasShape_of_resolve hresolve hshape,
      isStruct_of_struct (mapError_succeeds_iff.mp h)⟩
  next => cases h

theorem isList_of_elementStruct {type : TypeDef} (h : c.elementStruct tag target = .ok type) :
    c.types.IsList target := by
  obtain ⟨element, hlist, -⟩ := isListOf_of_elementStruct h
  exact ⟨element, hlist⟩

/-! ## Constraints -/

theorem holds_of_inDomain {literal : Literal} {kind : ScalarKind} {value : Value}
    (h : literal.inDomain? kind = some value) : kind.Holds value := by
  cases kind with
  | string =>
    cases h
    exact ⟨_, rfl⟩
  | int | uint | float =>
    obtain ⟨n, -, rfl⟩ := Option.map_eq_some_iff.mp h
    exact ⟨n, rfl⟩
  | bool =>
    obtain ⟨b, -, rfl⟩ := Option.map_eq_some_iff.mp h
    exact ⟨b, rfl⟩

theorem differs_suits {constraint : Constraint} (h : c.differs tag target = .ok constraint) :
    constraint.Suits c.types target := by
  rw [Compiler.differs, bind_succeeds_iff] at h
  obtain ⟨resolved, hresolve, h⟩ := h
  split at h
  next kind hshape =>
    split at h
    next => cases h
    next literal _ =>
      split at h
      next value hvalue =>
        cases h
        exact ⟨kind, hasShape_of_resolve hresolve hshape, holds_of_inDomain hvalue⟩
      next => cases h
  next => cases h

theorem enumeration_suits {constraint : Constraint}
    (h : c.enumeration tag target = .ok constraint) : constraint.Suits c.types target := by
  obtain ⟨name, type, underlying, constants, resolved, members, rfl, htype, hbody, hresolve,
    hstring, -, rfl⟩ := enumeration_eq_ok h
  refine ⟨name, type, underlying, constants, rfl, htype, hbody, ?_⟩
  apply hasShape_of_resolve hresolve
  cases hshape : resolved.shape with
  | scalar kind =>
    rw [hshape] at hstring
    cases kind with
    | string => rfl
    | _ => cases hstring
  | _ =>
    rw [hshape] at hstring
    cases hstring

/-- What the builder has checked before it builds a constraint. -/
theorem constraint_suits {name : SimpleTag} {constraint : Constraint}
    (h : c.constraint tag target around name = .ok constraint) :
    constraint.Suits c.types target := by
  have hname := constraint_tag h
  cases name with
  | required | optional | forbidden | immutable | opaqueType | declarativeValidationNative
  | enumExclude | update | unionMember | zeroOrOneOfMember =>
    -- The tag tells the constraint apart, and these ask nothing of the type.
    cases constraint <;> first | exact trivial | cases hname
  | minimum =>
    simp only [Compiler.constraint, bind_succeeds_iff, pure_succeeds_iff] at h
    obtain ⟨⟨⟩, hexpect, -, -, rfl⟩ := h
    obtain ⟨shape, hshape, hfits⟩ := hasShape_of_expect hexpect
    cases shape with
    | scalar kind => exact ⟨kind, hshape, hfits⟩
    | _ => cases hfits
  | maxLength | format =>
    simp only [Compiler.constraint, bind_succeeds_iff, pure_succeeds_iff] at h
    obtain ⟨⟨⟩, hexpect, -, -, rfl⟩ := h
    exact isString_of_expect hexpect
  | unionDiscriminator =>
    simp only [Compiler.constraint, bind_succeeds_iff, pure_succeeds_iff] at h
    obtain ⟨⟨⟩, -, ⟨⟩, hexpect, -, -, rfl⟩ := h
    exact isString_of_expect hexpect
  | maxItems =>
    simp only [Compiler.constraint, bind_succeeds_iff, pure_succeeds_iff] at h
    obtain ⟨⟨⟩, hexpect, -, -, rfl⟩ := h
    obtain ⟨shape, hshape, hfits⟩ := hasShape_of_expect hexpect
    cases shape with
    | slice element => exact ⟨element, hshape⟩
    | _ => cases hfits
  | maxProperties =>
    simp only [Compiler.constraint, bind_succeeds_iff, pure_succeeds_iff] at h
    obtain ⟨⟨⟩, hexpect, -, -, rfl⟩ := h
    obtain ⟨shape, hshape, hfits⟩ := hasShape_of_expect hexpect
    cases shape with
    | map key value => exact ⟨key, value, hshape⟩
    | _ => cases hfits
  | listMapKey =>
    simp only [Compiler.constraint, bind_succeeds_iff, pure_succeeds_iff] at h
    obtain ⟨type, hstruct, key, -, field, hfield, rfl⟩ := h
    exact ⟨type, field, isListOf_of_elementStruct hstruct, fieldOf_eq_ok hfield⟩
  | customUnique =>
    simp only [Compiler.constraint, bind_succeeds_iff] at h
    obtain ⟨element, helement, -⟩ := h
    cases constraint <;> first | exact ⟨element, hasShape_of_element helement⟩ | cases hname
  | listType | unique =>
    simp only [Compiler.constraint, bind_succeeds_iff] at h
    obtain ⟨word, -, h⟩ := h
    split at h
    next hmap =>
      simp only [bind_succeeds_iff, pure_succeeds_iff] at h
      obtain ⟨type, hstruct, rfl⟩ := h
      exact ⟨isList_of_elementStruct hstruct, fun _ => ⟨type, isListOf_of_elementStruct hstruct⟩⟩
    next hnot =>
      simp only [bind_succeeds_iff, pure_succeeds_iff] at h
      obtain ⟨element, helement, rfl⟩ := h
      exact ⟨⟨element, hasShape_of_element helement⟩, fun hmap => absurd hmap hnot⟩
  | neq => exact differs_suits h
  | enum => exact enumeration_suits h

/-! ## Rules -/

theorem isSettled_eq (constraint : Constraint) :
    constraint.isSettled = constraint.tag.isUnconditional := by
  cases constraint <;> rfl

theorem selectorKey_field {type : TypeDef} {keys : List (String × Value)}
    (h : tag.arguments.mapM (selectorKey tag type) = .ok keys) {key : String × Value}
    (hkey : key ∈ keys) : ∃ field, type.field? key.1 = some field := by
  obtain ⟨argument, -, h⟩ := exists_input_of_mapM h hkey
  rw [selectorKey] at h
  split at h
  next => cases h
  next name _ =>
    simp only [bind_succeeds_iff, pure_succeeds_iff] at h
    obtain ⟨field, hfield, rfl⟩ := h
    exact ⟨field, fieldOf_eq_ok hfield⟩

theorem Accepts.wellTyped {scope : Scope} {rule : Rule}
    (h : c.Accepts scope target around rule) :
    rule.WellTyped c.types around.conditional target := by
  induction h with
  | @leaf scope target around tag name constraint hscope hsettled hbuilt =>
    refine .leaf (constraint_suits hbuilt) ?_
    intro his
    rw [isSettled_eq, constraint_tag hbuilt] at his
    rwa [his, Bool.and_true] at hsettled
  | guarded hgate hinner ih => exact .guarded ih
  | element hresolve hshape hinner ih => exact .element (hasShape_of_resolve hresolve hshape) ih
  | entry hresolve hshape hinner ih => exact .entry (hasShape_of_resolve hresolve hshape) ih
  | key hresolve hshape hinner ih => exact .key (hasShape_of_resolve hresolve hshape) ih
  | subfield hstruct hfield hinner ih => exact .subfield (isStruct_of_struct hstruct) hfield ih
  | @item scope target element around tag type keys inner hstruct helement hselects hkeys hinner
      ih =>
    obtain ⟨element', hlist, hof⟩ := isListOf_of_elementStruct hstruct
    have hlist' := hasShape_of_element helement
    obtain ⟨resolved, hresolve, hshape⟩ := hlist
    obtain ⟨resolved', hresolve', hshape'⟩ := hlist'
    cases hresolve.symm.trans hresolve'
    cases hshape.symm.trans hshape'
    exact .item ⟨resolved, hresolve, hshape⟩ hof (fun key => selectorKey_field hkeys) ih

end Compiler

theorem Rule.inner?_isSome (rule : Rule) : rule.inner?.isSome = rule.isComposed := by
  cases rule <;> rfl

/-- Every rule that is built for a field or a type is about the values of that type. A composed
rule holds one rule and no other rule holds any, at whatever depth. -/
theorem build_wellTyped (types : Universe) (options : Options) :
    (∀ (field : FieldDef) (rules : List Rule),
      Compiler.fieldRules ⟨types, options⟩ field = .ok rules → ∀ rule ∈ rules,
        rule.WellTyped types false field.type ∧
          ∀ part ∈ rule.all, part.inner?.isSome = part.isComposed) ∧
      ∀ (type : TypeDef) (rules : List Rule),
        Compiler.typeRules ⟨types, options⟩ type = .ok rules → ∀ rule ∈ rules,
          rule.WellTyped types false (.named type.name) ∧
            ∀ part ∈ rule.all, part.inner?.isSome = part.isComposed := by
  refine ⟨fun field rules h rule hrule => ?_, fun type rules h rule hrule => ?_⟩
  · have haccepts := Compiler.fieldRules_accepts h hrule
    exact ⟨haccepts.wellTyped, fun part _ => part.inner?_isSome⟩
  · have haccepts := Compiler.typeRules_accepts h hrule
    exact ⟨haccepts.wellTyped, fun part _ => part.inner?_isSome⟩

/-- Entries have a mode that is one of a few words. -/
def entryTypes : Universe := Catalog.ofList
  [⟨"Entry", [], .struct
      [⟨"Name", none, .scalar .string, []⟩, ⟨"Mode", none, .pointer (.named "Mode"), []⟩]⟩,
    ⟨"Mode", ["+k8s:enum", "+k8s:ifDisabled(Short)=+k8s:neq=7"], .alias (.scalar .string)
      [⟨"Fast", "fast", ["+k8s:ifEnabled(Short)=+k8s:enumExclude"]⟩, ⟨"Slow", "slow", []⟩]⟩]

/-- A list that is identified by names, with a rule on the mode of one entry. -/
def entriesField : FieldDef :=
  ⟨"Entries", none, .slice (.named "Entry"),
    ["+k8s:listType=map", "+k8s:listMapKey=name",
      "+k8s:item(name: first)=+k8s:ifEnabled(Short)=+k8s:subfield(mode)=+k8s:maxLength=4"]⟩

theorem build_wellTyped_entries :
    ∃ fieldRules modeRules type, entryTypes.get? "Mode" = some type ∧
      Compiler.fieldRules ⟨entryTypes, .default⟩ entriesField = .ok fieldRules ∧
      fieldRules.length = 3 ∧
      (∀ rule ∈ fieldRules, rule.WellTyped entryTypes false (.slice (.named "Entry")) ∧
        ∀ part ∈ rule.all, part.inner?.isSome = part.isComposed) ∧
      Compiler.typeRules ⟨entryTypes, .default⟩ type = .ok modeRules ∧ modeRules.length = 2 ∧
      ∀ rule ∈ modeRules, rule.WellTyped entryTypes false (.named type.name) ∧
        ∀ part ∈ rule.all, part.inner?.isSome = part.isComposed := by
  have hfield : ((Compiler.fieldRules ⟨entryTypes, .default⟩ entriesField).toOption.map
      List.length) = some 3 := by
    decide +kernel
  have hmode : ((entryTypes.get? "Mode").map fun type =>
      ((Compiler.typeRules ⟨entryTypes, .default⟩ type).toOption.map List.length)) =
        some (some 2) := by
    decide +kernel
  obtain ⟨type, htype, hmode⟩ := Option.map_eq_some_iff.mp hmode
  cases hfieldRules : Compiler.fieldRules ⟨entryTypes, .default⟩ entriesField with
  | error error =>
    rw [hfieldRules] at hfield
    cases hfield
  | ok fieldRules =>
    cases hmodeRules : Compiler.typeRules ⟨entryTypes, .default⟩ type with
    | error error =>
      rw [hmodeRules] at hmode
      cases hmode
    | ok modeRules =>
      rw [hfieldRules] at hfield
      rw [hmodeRules] at hmode
      exact ⟨fieldRules, modeRules, type, htype, rfl, Option.some.inj hfield,
        (build_wellTyped entryTypes .default).1 entriesField fieldRules hfieldRules, hmodeRules,
        Option.some.inj hmode,
        (build_wellTyped entryTypes .default).2 type modeRules hmodeRules⟩

end TaggedSchema
