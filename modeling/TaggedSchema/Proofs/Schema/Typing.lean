import TaggedSchema.Proofs.Rule.Accepted
import TaggedSchema.Proofs.Schema.Compiled
import TaggedSchema.Proofs.Universe.References

/-!
# The types of plans

The rules that are read for a plan have been accepted for values of the shape that its reference
leads to. What is accepted at a place inside is accepted for the reference of that place.
-/

namespace TaggedSchema

namespace Compiler

variable {c : Compiler} {shape : Shape} {ref : TypeRef} {plan : Plan} {resolved : Resolved}
variable {rule inner : Rule} {tag : String}

/-- The rule is accepted for values of this shape. -/
def AcceptsFor (c : Compiler) (shape : Shape) (rule : Rule) : Prop :=
  ∃ scope target around resolved, c.Accepts scope target around rule ∧
    c.resolve target = .ok resolved ∧ resolved.shape = shape

/-- The rule is accepted for this reference. -/
def AcceptsAt (c : Compiler) (target : TypeRef) (rule : Rule) : Prop :=
  ∃ scope around, c.Accepts scope target around rule

namespace AcceptsFor

theorem resolve {gates : GateView} {active : Rule} (h : c.AcceptsFor shape rule)
    (hactive : rule.resolve gates = some active) : c.AcceptsFor shape active := by
  obtain ⟨scope, target, around, resolved, haccepts, hresolve, hshape⟩ := h
  obtain ⟨around', haccepts'⟩ := haccepts.resolve hactive
  exact ⟨scope, target, around', resolved, haccepts', hresolve, hshape⟩

theorem subfield {name jsonName : String}
    (h : c.AcceptsFor (.struct name) (.within (.subfield jsonName) inner tag)) :
    ∃ type field, c.types.get? name = some type ∧ type.field? jsonName = some field ∧
      c.AcceptsAt field.type inner := by
  obtain ⟨scope, target, around, resolved, haccepts, hresolve, hshape⟩ := h
  cases haccepts with
  | @subfield _ _ _ _ type _ field _ hstruct hfield hinner =>
    obtain ⟨resolved', name', hresolve', hshape', htype⟩ := struct_eq_ok hstruct
    cases hresolve.symm.trans hresolve'
    cases hshape.symm.trans hshape'
    exact ⟨type, field, htype, hfield, _, _, hinner⟩

/-- Items are chosen by key fields, which only structs have. -/
theorem item {element : TypeRef} {selector : ItemSelector}
    (h : c.AcceptsFor (.slice element) (.within (.item selector) inner tag)) :
    selector.keys ≠ [] ∧ (∃ resolved name, c.resolve element = .ok resolved ∧
      resolved.shape = .struct name) ∧ c.AcceptsAt element inner := by
  obtain ⟨scope, target, around, resolved, haccepts, hresolve, hshape⟩ := h
  cases haccepts with
  | @item _ _ element' _ itemTag type keys _ hstruct helement hselects hkeys hinner =>
    obtain ⟨resolved', hresolve', hshape'⟩ := element_eq_ok helement
    cases hresolve.symm.trans hresolve'
    cases hshape.symm.trans hshape'
    refine ⟨?_, ?_, _, _, hinner⟩
    · rintro rfl
      rw [mapM_succeeds_iff, List.forall₂_nil_right_iff] at hkeys
      rw [hkeys] at hselects
      cases hselects
    · rw [Compiler.elementStruct, bind_succeeds_iff] at hstruct
      obtain ⟨resolved'', hresolve'', hstruct⟩ := hstruct
      cases hresolve.symm.trans hresolve''
      simp only [hshape, mapError_succeeds_iff] at hstruct
      obtain ⟨resolved₁, name, hresolve₁, hshape₁, -⟩ := struct_eq_ok hstruct
      exact ⟨resolved₁, name, hresolve₁, hshape₁⟩

theorem element {element : TypeRef} {place : Place} (hplace : place.isEachVal = true)
    (h : c.AcceptsFor (.slice element) (.within place inner tag)) : c.AcceptsAt element inner := by
  obtain ⟨scope, target, around, resolved, haccepts, hresolve, hshape⟩ := h
  cases haccepts with
  | element hresolve' hshape' hinner =>
    cases hresolve.symm.trans hresolve'
    cases hshape.symm.trans hshape'
    exact ⟨_, _, hinner⟩
  | entry hresolve' hshape' hinner =>
    cases hresolve.symm.trans hresolve'
    cases hshape.symm.trans hshape'
  | key | subfield | item => cases hplace

theorem entry {key value : TypeRef} {place : Place} (hplace : place.isEachVal = true)
    (h : c.AcceptsFor (.map key value) (.within place inner tag)) : c.AcceptsAt value inner := by
  obtain ⟨scope, target, around, resolved, haccepts, hresolve, hshape⟩ := h
  cases haccepts with
  | element hresolve' hshape' hinner =>
    cases hresolve.symm.trans hresolve'
    cases hshape.symm.trans hshape'
  | entry hresolve' hshape' hinner =>
    cases hresolve.symm.trans hresolve'
    cases hshape.symm.trans hshape'
    exact ⟨_, _, hinner⟩
  | key | subfield | item => cases hplace

theorem key {key value : TypeRef} {place : Place} (hplace : place.isEachKey = true)
    (h : c.AcceptsFor (.map key value) (.within place inner tag)) : c.AcceptsAt key inner := by
  obtain ⟨scope, target, around, resolved, haccepts, hresolve, hshape⟩ := h
  cases haccepts with
  | key hresolve' hshape' hinner =>
    cases hresolve.symm.trans hresolve'
    cases hshape.symm.trans hshape'
    exact ⟨_, _, hinner⟩
  | element | entry | subfield | item => cases hplace

end AcceptsFor

/-! ## Plans and shapes -/

theorem HasPlan.resolves (h : c.HasPlan ref plan) :
    ∃ resolved, c.resolve ref = .ok resolved ∧ c.PlansShape resolved.shape plan ∧
      plan.access.named = resolved.named := by
  obtain ⟨depth, here, h⟩ := h
  obtain ⟨resolved, inherited, hresolve, -, hplans⟩ := Plans.inherited ⟨depth, h⟩
  refine ⟨resolved, hresolve, hplans.plansShape, ?_⟩
  rw [hplans.access_eq]

theorem PlansShape.of_struct {access : Access} {name : String}
    (h : c.PlansShape shape (.struct access name)) : shape = .struct name := by
  cases shape with
  | struct name' => rw [show name' = name from h]
  | _ => cases h

theorem PlansShape.of_list {access : Access} {element : Plan} {semantics : ListSemantics}
    (h : c.PlansShape shape (.list access element semantics)) :
    ∃ ref, shape = .slice ref ∧ c.HasPlan ref element := by
  cases shape with
  | slice ref => exact ⟨ref, rfl, h⟩
  | _ => cases h

theorem PlansShape.of_map {access : Access} {key value : Plan}
    (h : c.PlansShape shape (.map access key value)) :
    ∃ keyRef valueRef, shape = .map keyRef valueRef ∧ c.HasPlan keyRef key ∧
      c.HasPlan valueRef value := by
  cases shape with
  | map keyRef valueRef => exact ⟨keyRef, valueRef, rfl, h⟩
  | _ => cases h

end Compiler

end TaggedSchema
