import TaggedSchema.Proofs.Rule.Standing
import TaggedSchema.Proofs.Schema.Signatures

/-!
# Schemas without conditions that fail

Definitions that compile do so without the tags that do not stand. The schema has the same plans and
unions, and what is left of the rules.
-/

namespace TaggedSchema

def CompiledField.pruned (gates : GateView) (field : CompiledField) : CompiledField :=
  { field with rules := prunedRules gates field.rules }

def CompiledStruct.pruned (gates : GateView) (body : CompiledStruct) : CompiledStruct :=
  { body with fields := body.fields.map (CompiledField.pruned gates) }

theorem CompiledStruct.field?_pruned {gates : GateView} (body : CompiledStruct) (jsonName : String) :
    (body.pruned gates).field? jsonName =
      (body.field? jsonName).map (CompiledField.pruned gates) := by
  rw [field?, pruned, List.find?_map]
  rfl

def CompiledType.Body.pruned (gates : GateView) : CompiledType.Body → CompiledType.Body
  | .struct body => .struct (body.pruned gates)
  | .alias plan => .alias plan

def CompiledType.pruned (gates : GateView) (type : CompiledType) : CompiledType where
  name := type.name
  rules := prunedRules gates type.rules
  body := type.body.pruned gates

namespace Compiler

variable {c : Compiler} {gates : GateView}

/-! ## Plans -/

theorem aliasRules_pruned {name : String} {rules : List Rule} (h : c.aliasRules name = .ok rules) :
    (c.pruned gates).aliasRules name = .ok (prunedRules gates rules) := by
  have hget : (c.pruned gates).types.get? name = (c.types.get? name).map (TypeDef.pruned gates) :=
    c.types.get?_pruned gates name
  rw [aliasRules] at h ⊢
  rw [hget]
  cases htype : c.types.get? name with
  | none =>
    simp only [htype] at h
    cases h
    rfl
  | some type =>
    simp only [htype] at h
    simp only [Option.map_some, type.isAlias_pruned]
    split at h
    next halias =>
      rw [if_pos halias]
      exact typeRules_pruned h
    next hstruct =>
      rw [if_neg hstruct]
      cases h
      rfl

theorem inherited_pruned {named : List String} {inherited : List (List Rule)}
    (h : named.mapM c.aliasRules = .ok inherited) :
    named.mapM (c.pruned gates).aliasRules = .ok (inherited.map (prunedRules gates)) := by
  rw [mapM_succeeds_iff, List.forall₂_map_right_iff]
  exact (mapM_succeeds_iff.mp h).imp fun _ _ => aliasRules_pruned

/-- A reference has the plan that it had. The induction is on the depth of the plan. -/
theorem planWithin_pruned {depth : Nat} {ref : TypeRef} {here : List Rule} {plan : Plan}
    (h : c.planWithin depth ref here = .ok plan) :
    (c.pruned gates).planWithin depth ref (prunedRules gates here) = .ok plan := by
  induction depth generalizing ref here plan with
  | zero => cases h
  | succ depth ih =>
    simp only [planWithin, bind_succeeds_iff] at h ⊢
    obtain ⟨resolved, hresolve, inherited, hinherited, h⟩ := h
    refine ⟨resolved, (resolve_pruned ref).trans hresolve, _, inherited_pruned hinherited, ?_⟩
    have hrules : prunedRules gates here ++ (inherited.map (prunedRules gates)).flatten =
        prunedRules gates (here ++ inherited.flatten) := by
      rw [prunedRules_append, prunedRules, prunedRules, List.filterMap_flatten]
      rfl
    rw [hrules]
    split at h
    next => exact h
    next => exact h
    next element hshape =>
      simp only [bind_succeeds_iff] at h ⊢
      obtain ⟨semantics, hsemantics, inner, hinner, h⟩ := h
      refine ⟨semantics, (listSemantics_prunedRules _).trans hsemantics, inner, ?_, h⟩
      rw [rulesWithin_prunedRules]
      exact ih hinner
    next key value hshape =>
      simp only [bind_succeeds_iff] at h ⊢
      obtain ⟨keyPlan, hkey, valuePlan, hvalue, h⟩ := h
      refine ⟨keyPlan, ?_, valuePlan, ?_, h⟩
      · rw [rulesWithin_prunedRules]
        exact ih hkey
      · rw [rulesWithin_prunedRules]
        exact ih hvalue

theorem plan_pruned {ref : TypeRef} {here : List Rule} {plan : Plan}
    (h : c.plan ref here = .ok plan) :
    (c.pruned gates).plan ref (prunedRules gates here) = .ok plan := by
  rw [Compiler.plan, (c.alike_pruned gates).depthBound]
  exact planWithin_pruned h

/-! ## Definitions -/

theorem field_pruned {u v : Unions} {field : FieldDef} {compiled : CompiledField}
    (h : c.field u field = .ok (compiled, v)) :
    (c.pruned gates).field u (field.pruned gates) = .ok (compiled.pruned gates, v) := by
  obtain ⟨rules, plan, hrules, hplan, hunions, rfl⟩ := field_eq_ok h
  simp only [Compiler.field, bind_succeeds_iff, pure_succeeds_iff]
  refine ⟨_, fieldRules_pruned hrules, plan, plan_pruned hplan, v, ?_, ?_⟩
  · rw [Unions.addFieldRules_prunedRules]
    exact hunions
  · rw [hasConstraint_prunedRules fun _ _ => rfl, hasConstraint_prunedRules fun _ _ => rfl]
    rfl

theorem fields_pruned {type : String} {u v : Unions} {fields : List FieldDef}
    {compiled : List CompiledField} (h : c.fields type u fields = .ok (compiled, v)) :
    (c.pruned gates).fields type u (fields.map (FieldDef.pruned gates)) =
      .ok (compiled.map (CompiledField.pruned gates), v) := by
  induction fields generalizing u compiled with
  | nil =>
    cases h
    rfl
  | cons field fields ih =>
    obtain ⟨first, u', others, hfirst, hothers, rfl⟩ := fields_cons_eq_ok h
    rw [List.map_cons, Compiler.fields, field_pruned hfirst]
    simp only [Except.mapError, bind, Except.bind, ih hothers]
    rfl

theorem structBody_pruned {type : String} {fields : List FieldDef} {body : CompiledStruct}
    (h : c.structBody type fields = .ok body) :
    (c.pruned gates).structBody type (fields.map (FieldDef.pruned gates)) =
      .ok (body.pruned gates) := by
  rw [structBody, bind_succeeds_iff] at h ⊢
  obtain ⟨⟨compiled, u⟩, hfields, h⟩ := h
  refine ⟨_, fields_pruned hfields, ?_⟩
  simp only at h ⊢
  split at h
  next => cases h
  next =>
    cases h
    rfl

theorem definition_pruned {type : TypeDef} {compiled : CompiledType}
    (h : c.definition type = .ok compiled) :
    (c.pruned gates).definition (type.pruned gates) = .ok (compiled.pruned gates) := by
  obtain ⟨hname, hrules, hbody⟩ := definition_spec h
  obtain ⟨name, rules, body⟩ := compiled
  cases hname
  rw [definition, bind_succeeds_iff]
  refine ⟨_, mapError_succeeds_iff.mpr (typeRules_pruned hrules), ?_⟩
  rcases hbody with ⟨fields, struct, htype, rfl, hstruct⟩ |
    ⟨underlying, constants, plan, htype, rfl, hplan⟩
  · have htype' : (type.pruned gates).body = .struct (fields.map (FieldDef.pruned gates)) := by
      rw [TypeDef.pruned, htype]
      rfl
    have hstruct' : (c.pruned gates).structBody (type.pruned gates).name
        (fields.map (FieldDef.pruned gates)) = .ok (struct.pruned gates) :=
      structBody_pruned hstruct
    rw [htype']
    simp only [hstruct']
    rfl
  · have htype' : (type.pruned gates).body =
        .alias underlying (constants.map (ConstantDef.pruned gates)) := by
      rw [TypeDef.pruned, htype]
      rfl
    have hplan' : (c.pruned gates).plan (.named (type.pruned gates).name) [] = .ok plan :=
      plan_pruned hplan
    rw [htype']
    simp only [hplan']
    rfl

end Compiler

/-! ## Whole schemas -/

section

variable {types : Universe} {options : Options}

/-- Without the tags that do not stand, no definition is rejected either. -/
theorem isOk_pruned (hok : (compile types options).isOk = true) (gates : GateView) :
    (compile (types.pruned gates) options).isOk = true := by
  apply isOk_of_definitions
  intro type' htype'
  obtain ⟨type, htype, rfl⟩ := List.mem_map.mp htype'
  obtain ⟨compiled, hcompiled⟩ := definition_of_isOk hok htype
  exact ⟨_, Compiler.definition_pruned hcompiled⟩

theorem schema_get?_pruned (hok : (compile types options).isOk = true) (gates : GateView)
    (name : String) :
    (compile (types.pruned gates) options).schema.get? name =
      ((compile types options).schema.get? name).map (CompiledType.pruned gates) := by
  have hget := types.get?_pruned gates name
  cases htype : types.get? name with
  | none =>
    rw [htype] at hget
    rw [schema_get?_eq_none htype, schema_get?_eq_none hget]
    rfl
  | some type =>
    rw [htype] at hget
    obtain ⟨compiled, hcompiled, hdefinition⟩ := get?_of_isOk hok htype
    obtain ⟨compiled', hcompiled', hdefinition'⟩ := get?_of_isOk (isOk_pruned hok gates) hget
    cases (Compiler.definition_pruned hdefinition).symm.trans hdefinition'
    rw [hcompiled, hcompiled']
    rfl

theorem struct?_pruned (hok : (compile types options).isOk = true) (gates : GateView)
    (name : String) :
    (compile (types.pruned gates) options).schema.struct? name =
      ((compile types options).schema.struct? name).map (CompiledStruct.pruned gates) := by
  rw [Schema.struct?, Schema.struct?, schema_get?_pruned hok]
  cases (compile types options).schema.get? name with
  | none => rfl
  | some type =>
    simp only [Option.map_some, Option.bind_eq_bind, Option.bind_some, CompiledType.pruned]
    cases type.body <;> rfl

end

end TaggedSchema
