import TaggedSchema.Proofs.Rule.Accepted
import TaggedSchema.Proofs.Universe.Signatures

/-!
# Rules and the tags of other definitions

A tag is built by the names and types of the definitions that it meets, and never by their tags.
Only an enumeration also takes the constants of the alias to which it is attached, with their tags.
So the rules of a field, and those of a type whose constants are left as they are, are the same
whatever tags other definitions have.
-/

namespace TaggedSchema

/-- Steps that agree on what `f` shows of a result go on alike if it decides how they go on. -/
theorem bind_congr_of_map {ε α β γ : Type} {f : α → β} {x x' : Except ε α}
    {next next' : α → Except ε γ} (h : x'.map f = x.map f)
    (hnext : ∀ a a', f a' = f a → next' a' = next a) : x' >>= next' = x >>= next := by
  cases x with
  | error error =>
    cases x' with
    | error error' => exact congrArg Except.error (Except.error.inj h)
    | ok a' => cases h
  | ok a =>
    cases x' with
    | error error' => cases h
    | ok a' => exact hnext a a' (Except.ok.inj h)

namespace Compiler

/-- Both build under the same options, against definitions that differ in tags only. -/
structure Alike (c c' : Compiler) : Prop where
  options : c'.options = c.options
  types : Universe.SameSignatures c.types c'.types

variable {tag : Tag} {target : TypeRef} {scope : Scope} {around : Surroundings}
variable {type type' : TypeDef}

/-! ## Targets -/

theorem fieldOf_untagged (h : type'.untagged = type.untagged) (jsonName : String) :
    (fieldOf tag type' jsonName).map FieldDef.untagged =
      (fieldOf tag type jsonName).map FieldDef.untagged := by
  have hname : type'.name = type.name := (congrArg TypeDef.name h :)
  have hfield := congrArg (TypeDef.field? · jsonName) h
  simp only [TypeDef.field?_untagged] at hfield
  rw [fieldOf, fieldOf, hname]
  cases hfound : type.field? jsonName <;> cases hfound' : type'.field? jsonName <;>
    rw [hfound, hfound'] at hfield <;> simp_all [Except.map]

theorem selectorKey_untagged (h : type'.untagged = type.untagged) :
    selectorKey tag type' = selectorKey tag type := by
  funext argument
  rw [selectorKey, selectorKey]
  cases argument.name? with
  | none => rfl
  | some name => exact bind_congr_of_map (fieldOf_untagged h name) fun _ _ _ => rfl

namespace Alike

variable {c c' : Compiler} (h : c.Alike c')

include h

theorem resolve (target : TypeRef) : c'.resolve target = c.resolve target :=
  congrArg (Except.mapError BuildError.type) (h.types.references.resolve target)

theorem expect (tag : Tag) (target : TypeRef) (expected : Target) (fits : Shape → Bool) :
    c'.expect tag target expected fits = c.expect tag target expected fits := by
  rw [Compiler.expect, Compiler.expect, h.resolve]

theorem element (tag : Tag) (target : TypeRef) : c'.element tag target = c.element tag target := by
  rw [Compiler.element, Compiler.element, h.resolve]

theorem differs (tag : Tag) (target : TypeRef) : c'.differs tag target = c.differs tag target := by
  rw [Compiler.differs, Compiler.differs, h.resolve]

theorem struct (tag : Tag) (target : TypeRef) :
    (c'.struct tag target).map TypeDef.untagged = (c.struct tag target).map TypeDef.untagged := by
  rw [Compiler.struct, Compiler.struct, h.resolve]
  cases c.resolve target with
  | error error => rfl
  | ok resolved =>
    simp only [bind, Except.bind]
    cases resolved.shape.structName? with
    | none => rfl
    | some name =>
      have hget := h.types.get? name
      cases htype : c.types.get? name <;> cases htype' : c'.types.get? name <;>
        rw [htype, htype'] at hget <;> simp_all [Except.map]

theorem elementStruct (tag : Tag) (target : TypeRef) :
    (c'.elementStruct tag target).map TypeDef.untagged =
      (c.elementStruct tag target).map TypeDef.untagged := by
  rw [Compiler.elementStruct, Compiler.elementStruct, h.resolve]
  cases c.resolve target with
  | error error => rfl
  | ok resolved =>
    simp only [bind, Except.bind]
    cases resolved.shape with
    | slice element =>
      have hstruct := h.struct tag element
      cases hfound : c.struct tag element <;> cases hfound' : c'.struct tag element <;>
        rw [hfound, hfound'] at hstruct <;> simp_all [Except.map, Except.mapError]
    | _ => rfl

/-! ## Options -/

theorem compiles : c'.compiles = c.compiles := by
  funext tag
  rw [Compiler.compiles, Compiler.compiles, h.options]

theorem inner (tag : Tag) : c'.inner tag = c.inner tag := by
  rw [Compiler.inner, Compiler.inner, h.options]

theorem unknown {α : Type} (tag : Tag) :
    (c'.unknown tag : Except BuildError (Option α)) = c.unknown tag := by
  rw [Compiler.unknown, Compiler.unknown, h.options]

theorem gate (tag : Tag) : c'.gate tag = c.gate tag := by
  rw [Compiler.gate, Compiler.gate, h.options]

/-! ## Constraints -/

/-- An enumeration at a name is the same if the constants of this name are. -/
theorem enumeration (tag : Tag)
    (hsame : ∀ name, target = .named name → c'.types.constants? name = c.types.constants? name) :
    c'.enumeration tag target = c.enumeration tag target := by
  have hmember : c'.enumMember = c.enumMember := by
    obtain ⟨types, options⟩ := c
    obtain ⟨types', options'⟩ := c'
    obtain rfl : options' = options := h.options
    funext constant
    rw [enumMember, enumMember, exclusion_types types]
    rfl
  cases target with
  | named name =>
    have huntagged := h.types.get? name
    have hconstants := hsame name rfl
    rw [Universe.constants?, Universe.constants?] at hconstants
    simp only [Compiler.enumeration, h.resolve, hmember]
    cases hget : c.types.get? name <;> cases hget' : c'.types.get? name <;>
      rw [hget, hget'] at huntagged hconstants
    case named.none.some => cases huntagged
    case named.some.none => cases huntagged
    case named.some.some type type' =>
      have hbody : type'.body.untagged = type.body.untagged :=
        congrArg TypeDef.body (Option.some.inj huntagged)
      have hconstants : type'.constants = type.constants := Option.some.inj hconstants
      rw [TypeDef.constants, TypeDef.constants] at hconstants
      dsimp only
      cases htype : type.body <;> cases htype' : type'.body <;>
        rw [htype, htype'] at hbody hconstants
      case struct.alias => cases hbody
      case alias.struct => cases hbody
      case alias.alias underlying constants underlying' constants' =>
        obtain ⟨rfl, -⟩ := TypeDef.Body.alias.inj hbody
        obtain rfl : constants' = constants := hconstants
        rfl
  | _ => rfl

theorem constraint (tag : Tag) (around : Surroundings) {name : SimpleTag}
    (hsame : name = .enum → ∀ name, target = .named name →
      c'.types.constants? name = c.types.constants? name) :
    c'.constraint tag target around name = c.constraint tag target around name := by
  cases name with
  | required | optional | forbidden | immutable | opaqueType | declarativeValidationNative
  | enumExclude | update | unionMember | zeroOrOneOfMember => rfl
  | minimum | maxLength | maxItems | maxProperties | format | unionDiscriminator =>
    rw [Compiler.constraint, Compiler.constraint, h.expect]
  | neq => exact h.differs tag target
  | enum => exact h.enumeration tag (hsame rfl)
  | customUnique => rw [Compiler.constraint, Compiler.constraint, h.element]
  | listType | unique =>
    rw [Compiler.constraint, Compiler.constraint, h.element]
    refine bind_congr fun word => ?_
    split
    next => exact bind_congr_of_map (h.elementStruct tag target) fun _ _ _ => rfl
    next => rfl
  | listMapKey =>
    rw [Compiler.constraint, Compiler.constraint]
    refine bind_congr_of_map (h.elementStruct tag target) fun type type' htype => ?_
    refine bind_congr fun name => ?_
    exact bind_congr_of_map (fieldOf_untagged htype name) fun _ _ _ => rfl

/-! ## Tags -/

/-- The builders build the same, except where an enumeration may be attached to a definition with
other constants. -/
def Builds (c c' : Compiler) (build build' : Builder) : Prop :=
  ∀ scope target around,
    (scope = .type → ∀ name, target = .named name →
      c'.types.constants? name = c.types.constants? name) →
    build' scope target around = build scope target around

theorem wrapped {nested nested' : Builder} (tag : Tag) {target : TypeRef}
    (hnested : nested' scope target around = nested scope target around) (wrap : Rule → Rule) :
    c'.wrapped tag nested' scope target around wrap =
      c.wrapped tag nested scope target around wrap := by
  rw [Compiler.wrapped, Compiler.wrapped, h.inner, hnested]

theorem directive {nested nested' : Builder} (hnested : Builds c c' nested nested')
    {directive : Directive} (hscope : scope ∈ directive.scopes)
    (hsame : scope = .type → ∀ name, target = .named name →
      c'.types.constants? name = c.types.constants? name) :
    c'.directive tag nested' scope target around directive =
      c.directive tag nested scope target around directive := by
  -- No enumeration is attached to elements, keys, values or fields.
  have hinside {scope : Scope} (hscope : scope ≠ .type) (target : TypeRef) (around : Surroundings) :
      nested' scope target around = nested scope target around :=
    hnested scope target around fun htype => absurd htype hscope
  cases directive with
  | simple name =>
    have henum (hname : name = .enum) : scope = .type := by
      rw [hname] at hscope
      exact List.mem_singleton.mp hscope
    rw [Compiler.directive, Compiler.directive,
      h.constraint tag around fun hname => hsame (henum hname)]
  | eachVal =>
    rw [Compiler.directive, Compiler.directive, h.resolve]
    refine bind_congr fun resolved => ?_
    cases resolved.shape with
    | slice element => exact h.wrapped tag (hinside (by decide) element around) _
    | map key value => exact h.wrapped tag (hinside (by decide) value around) _
    | _ => rfl
  | eachKey =>
    rw [Compiler.directive, Compiler.directive, h.resolve]
    refine bind_congr fun resolved => ?_
    cases resolved.shape with
    | map key value => exact h.wrapped tag (hinside (by decide) key around) _
    | _ => rfl
  | subfield =>
    rw [Compiler.directive, Compiler.directive]
    refine bind_congr_of_map (h.struct tag target) fun type type' htype => ?_
    cases tag.positional?.bind Literal.text? with
    | none => rfl
    | some jsonName =>
      refine bind_congr_of_map (fieldOf_untagged htype jsonName) fun field field' hfield => ?_
      have hname : field'.name = field.name := (congrArg FieldDef.name hfield :)
      have htype : field'.type = field.type := (congrArg FieldDef.type hfield :)
      rw [hname, htype]
      exact h.wrapped tag (hinside (by decide) field.type _) _
  | item =>
    rw [Compiler.directive, Compiler.directive]
    refine bind_congr_of_map (h.elementStruct tag target) fun type type' htype => ?_
    rw [h.element, selectorKey_untagged htype]
    refine bind_congr fun element => ?_
    split
    next => rfl
    next =>
      refine bind_congr fun keys => ?_
      exact h.wrapped tag (hinside (by decide) element _) _
  | conditional polarity =>
    rw [Compiler.directive, Compiler.directive, h.gate]
    refine bind_congr fun gate => ?_
    exact h.wrapped tag (hnested scope target _ hsame) _

theorem step {nested nested' : Builder} (hnested : Builds c c' nested nested') :
    Builds c c' (c.step tag nested) (c'.step tag nested') := by
  intro scope target around hsame
  rw [Compiler.step, Compiler.step]
  cases Directive.ofName? tag.name with
  | none => exact h.unknown tag
  | some directive =>
    dsimp only
    split
    next => rfl
    next hscope =>
      split
      next => rfl
      next => exact h.directive hnested (by simpa using hscope) hsame

/-- The induction is on the nesting of tags. -/
theorem build (tag : Tag) : Builds c c' (c.build tag) (c'.build tag) := by
  have hnothing : Builds c c' (fun _ _ _ => .ok none) fun _ _ _ => .ok none :=
    fun _ _ _ _ => rfl
  induction tag with
  | bare head => exact h.step hnothing
  | valued head value => exact h.step hnothing
  | composed head inner ih => exact h.step ih

/-! ## The rules of one place -/

theorem rules (tags : List Tag)
    (hsame : scope = .type → ∀ name, target = .named name →
      c'.types.constants? name = c.types.constants? name) :
    c'.rules tags scope target around = c.rules tags scope target around := by
  have hbuild : (fun tag => c'.build tag scope target around) =
      fun tag => c.build tag scope target around :=
    funext fun tag => h.build tag scope target around hsame
  rw [Compiler.rules, Compiler.rules, h.compiles, hbuild]

theorem fieldRules (field : FieldDef) : c'.fieldRules field = c.fieldRules field := by
  rw [Compiler.fieldRules, Compiler.fieldRules]
  exact bind_congr fun tags => h.rules tags fun hscope => absurd hscope (by decide)

theorem typeRules {type : TypeDef}
    (hsame : c'.types.constants? type.name = c.types.constants? type.name) :
    c'.typeRules type = c.typeRules type := by
  rw [Compiler.typeRules, Compiler.typeRules]
  refine bind_congr fun tags => h.rules tags ?_
  rintro - name ⟨⟩
  exact hsame

end Alike

end Compiler

end TaggedSchema
