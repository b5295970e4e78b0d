import TaggedSchema.Proofs.Rule.Typing
import TaggedSchema.Proofs.Schema.Places

/-!
# Lists in schemas

At every depth of a compiled type, just the lists have semantics. These do not contradict
themselves, and their keys are fields of the elements.
-/

namespace TaggedSchema

/-- The plans that a type consists of: those of its fields, or the one of what an alias stands
for. -/
def CompiledType.Body.plans : CompiledType.Body → List Plan
  | .struct body => body.fields.map CompiledField.plan
  | .alias plan => [plan]

/-- The plan has semantics if the reference leads to a list, and then such as lists of that type
can have. -/
structure Plan.SemanticsFit (types : Universe) (target : TypeRef) (plan : Plan) : Prop where
  present : plan.semantics?.isSome = true ↔ types.IsList target
  consistent : ∀ semantics, plan.semantics? = some semantics → semantics.Consistent
  keys : ∀ semantics, plan.semantics? = some semantics → ∀ key ∈ semantics.keys,
    ∃ type field, types.IsListOf target type ∧ type.field? key = some field

namespace Compiler

variable {c : Compiler} {r : RuledRef} {plan : Plan} {shape : Shape} {rule : Rule}

theorem AcceptsFor.wellTyped (h : c.AcceptsFor shape rule) :
    ∃ conditional target, c.types.HasShape target shape ∧
      rule.WellTyped c.types conditional target := by
  obtain ⟨scope, target, around, resolved, haccepts, hresolve, hshape⟩ := h
  exact ⟨_, target, hasShape_of_resolve hresolve hshape, haccepts.wellTyped⟩

/-- A key is only accepted if the elements have a field of that name. -/
theorem AcceptsFor.keyField {element : TypeRef} {name tag : String}
    (h : c.AcceptsFor (.slice element) (.leaf (.listMapKey name) tag)) :
    ∃ type field, c.types.IsStruct element type ∧ type.field? name = some field := by
  obtain ⟨conditional, target, ⟨resolved, hresolve, hshape⟩, htyped⟩ := h.wellTyped
  cases htyped with
  | leaf hsuits hsettled =>
    obtain ⟨type, field, ⟨element', ⟨resolved', hresolve', hshape'⟩, hstruct⟩, hfield⟩ := hsuits
    cases hresolve.symm.trans hresolve'
    cases hshape.symm.trans hshape'
    exact ⟨type, field, hstruct, hfield⟩

/-- The plan of a reference whose rules are accepted has the semantics that its lists can have. -/
theorem IsPlanOf.semanticsFit (h : c.IsPlanOf r plan) (haccepted : c.Accepted r) :
    plan.SemanticsFit c.types r.ref := by
  obtain ⟨resolved, rules, hresolve, hread, hplans⟩ := h.read
  have hshape : c.types.HasShape r.ref resolved.shape := hasShape_of_resolve hresolve rfl
  have hrules := haccepted.read hresolve hread
  -- A reference has one shape, so that the shape decides whether it leads to a list.
  have hunique {element : TypeRef} (hlist : c.types.HasShape r.ref (.slice element)) :
      resolved.shape = .slice element := by
    obtain ⟨resolved', hresolve', hshape'⟩ := hlist
    cases (mapError_succeeds_iff.mp hresolve).symm.trans hresolve'
    exact hshape'
  generalize resolved.shape = shape at hplans hshape hrules hunique
  cases hplans with
  | scalar | struct | map =>
    refine ⟨⟨nofun, ?_⟩, nofun, nofun⟩
    rintro ⟨element, hlist⟩
    cases hunique hlist
  | @slice element inner semantics hsemantics hinner =>
    obtain ⟨hsaid, hconsistent⟩ := ListSemantics.ofRules_eq_ok hsemantics
    refine ⟨⟨fun _ => ⟨element, hshape⟩, fun _ => rfl⟩, ?consistent, ?keys⟩
    case consistent =>
      rintro _ ⟨⟩
      exact hconsistent
    case keys =>
      rintro _ ⟨⟩ key hkey
      obtain ⟨constraint, tag, hrule, hnames⟩ := Rule.mem_said_iff.mp ((hsaid.keys key).mp hkey)
      obtain rfl := Constraint.mapKey?_eq_some_iff.mp hnames
      obtain ⟨type, field, hstruct, hfield⟩ := (hrules _ hrule).keyField
      exact ⟨type, field, ⟨element, hshape, hstruct⟩, hfield⟩

end Compiler

section

variable {types : Universe} {options : Options}

/-- The plans of a type are those of references with accepted rules. -/
theorem isPlanOf_of_type {name : String} {type : CompiledType}
    (htype : (compile types options).schema.get? name = some type) {plan : Plan}
    (hplan : plan ∈ type.body.plans) :
    ∃ r, Compiler.IsPlanOf ⟨types, options⟩ r plan ∧ Compiler.Accepted ⟨types, options⟩ r := by
  obtain ⟨definition, hmem, hdefinition⟩ := definition_of_mem_schema (Catalog.mem_of_get? htype)
  rcases hbody : type.body with body | underlying
  · rw [hbody] at hplan
    obtain ⟨field, hfield, rfl⟩ := List.mem_map.mp hplan
    have hfields := Compiler.definition_fields hdefinition hbody
    obtain ⟨fieldDef, -, hcompiles⟩ := exists_of_forall₂ hfields hfield
    exact ⟨⟨fieldDef.type, field.rules⟩, ⟨_, hcompiles.plan⟩, fun rule hrule =>
      ⟨_, _, Compiler.fieldRules_accepts hcompiles.rules hrule⟩⟩
  · rw [hbody] at hplan
    obtain rfl := List.mem_singleton.mp hplan
    obtain ⟨-, -, ⟨_, _, -, hstruct, -⟩ | ⟨_, _, plan, -, halias, hplan⟩⟩ :=
      Compiler.definition_spec hdefinition
    · cases hbody.symm.trans hstruct
    · cases hbody.symm.trans halias
      exact ⟨⟨.named definition.name, []⟩, ⟨_, hplan⟩, nofun⟩

/-- Wherever places lead to in a plan of a compiled type, the plan there has semantics if and only
if its reference leads to a list. They do not contradict themselves, and each key is a field of the
struct to which the elements lead. -/
theorem semanticsFit_of_type {name : String} {type : CompiledType}
    (htype : (compile types options).schema.get? name = some type) {plan : Plan}
    (hplan : plan ∈ type.body.plans) :
    ∃ r, Compiler.IsPlanOf ⟨types, options⟩ r plan ∧
      ∀ places part, plan.inside? places = some part →
        ∃ s, Compiler.inside? ⟨types, options⟩ r places = some s ∧
          Compiler.IsPlanOf ⟨types, options⟩ s part ∧ part.SemanticsFit types s.ref := by
  obtain ⟨r, hr, haccepted⟩ := isPlanOf_of_type htype hplan
  refine ⟨r, hr, ?_⟩
  intro places part hpart
  obtain ⟨s, hinside, hs⟩ := hr.inside hpart
  exact ⟨s, hinside, hs, hs.semanticsFit (haccepted.inside hinside)⟩

end

/-- Rooms are known by their number, and by their floor too where they are booked. -/
def bookingTypes : Universe := Catalog.ofList
  [⟨"Booking", [], .struct
      [⟨"Rooms", none, .map (.scalar .string) (.named "Rooms"),
        ["+k8s:eachVal=+k8s:listMapKey=floor"]⟩]⟩,
    ⟨"Room", [], .struct
      [⟨"Floor", none, .scalar .int, []⟩, ⟨"Number", none, .scalar .int, []⟩]⟩,
    ⟨"Rooms", ["+k8s:listType=map", "+k8s:listMapKey=number"],
      .alias (.slice (.named "Room")) []⟩]

theorem semanticsFit_of_type_booking :
    ∃ type, (compile bookingTypes .default).schema.get? "Booking" = some type ∧
      ∃ plan ∈ type.body.plans, ∃ part semantics, plan.inside? [.eachVal] = some part ∧
        part.semantics? = some semantics ∧ semantics.keys = ["floor", "number"] ∧
          ∃ r s, Compiler.IsPlanOf ⟨bookingTypes, .default⟩ r plan ∧
            Compiler.inside? ⟨bookingTypes, .default⟩ r [.eachVal] = some s ∧
              Compiler.IsPlanOf ⟨bookingTypes, .default⟩ s part ∧
                part.SemanticsFit bookingTypes s.ref := by
  have hcompiled : ((compile bookingTypes .default).schema.get? "Booking").any (fun type =>
      type.body.plans.any fun plan => (plan.inside? [.eachVal]).any fun part =>
        part.semantics?.any fun semantics => semantics.keys == ["floor", "number"]) = true := by
    decide +kernel
  obtain ⟨type, htype, hplans⟩ := (Option.any_eq_true _ _).mp hcompiled
  obtain ⟨plan, hplan, hparts⟩ := List.any_eq_true.mp hplans
  obtain ⟨part, hpart, hlists⟩ := (Option.any_eq_true _ _).mp hparts
  obtain ⟨semantics, hsemantics, hkeys⟩ := (Option.any_eq_true _ _).mp hlists
  obtain ⟨r, hr, hinside⟩ := semanticsFit_of_type htype hplan
  obtain ⟨s, hs, hspart, hfit⟩ := hinside _ part hpart
  exact ⟨type, htype, plan, hplan, part, semantics, hpart, hsemantics, eq_of_beq hkeys, r, s, hr,
    hs, hspart, hfit⟩

end TaggedSchema
