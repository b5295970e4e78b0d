import TaggedSchema.Proofs.Rule.Inlining
import TaggedSchema.Proofs.Schema.Compiled

/-!
# Schemas without an alias

Plans say the same whichever way the rules of a list come to it, as rules at a field or lent by an
alias. Without the alias, the field that had it lists one named type less and has the rules of the
alias itself; nothing else in the schema is changed.
-/

namespace TaggedSchema

/-! ## What becomes of a schema -/

/-- A compiled field, and the one without the alias that lends it these rules. -/
inductive CompiledField.Inlined (lender : String) (lent : List Rule) :
    CompiledField → CompiledField → Prop
  | same (field : CompiledField) : Inlined lender lent field field
  | inlined {field : CompiledField} {named : List String}
      (hnamed : field.plan.access.named = lender :: named) (hdeep : field.isOpaque = false) :
      Inlined lender lent field
        { field with rules := field.rules ++ lent, plan := field.plan.withNamed named }

structure CompiledStruct.Inlined (lender : String) (lent : List Rule)
    (body body' : CompiledStruct) : Prop where
  fields : List.Forall₂ (CompiledField.Inlined lender lent) body.fields body'.fields
  unions : body'.unions = body.unions
  zeroOrOne : body'.zeroOrOne = body.zeroOrOne

inductive CompiledType.Body.Inlined (lender : String) (lent : List Rule) :
    CompiledType.Body → CompiledType.Body → Prop
  | struct {body body' : CompiledStruct} (h : CompiledStruct.Inlined lender lent body body') :
      Inlined lender lent (.struct body) (.struct body')
  | plan (plan : Plan) : Inlined lender lent (.alias plan) (.alias plan)

structure CompiledType.Inlined (lender : String) (lent : List Rule) (type type' : CompiledType) :
    Prop where
  name : type'.name = type.name
  rules : type'.rules = type.rules
  body : CompiledType.Body.Inlined lender lent type.body type'.body

/-- A schema, and the one where some fields are without the alias that lends them these rules. -/
structure Schema.Inlined (lender : String) (lent : List Rule) (schema schema' : Schema) :
    Prop where
  types (wanted : String) :
    Option.Rel (CompiledType.Inlined lender lent) (schema.get? wanted) (schema'.get? wanted)
  lends : ∃ type, schema.get? lender = some type ∧ type.rules = lent
  /-- Rules on change and presence are not for types. -/
  clear (gates : GateView) : ∀ constraint ∈ (activeRules gates lent).filterMap Rule.constraint?,
    constraint.isShortCircuit = false

namespace Compiler

/-! ## Plans -/

variable {types : Universe} {options : Options} {a : AliasField types}

theorem aliasRules_inlined {name : String} {rules rules' : List Rule}
    (h : Compiler.aliasRules ⟨types, options⟩ name = .ok rules)
    (h' : Compiler.aliasRules ⟨a.inlined, options⟩ name = .ok rules') : rules' = rules := by
  simp only [aliasRules, a.inlined_get?] at h h'
  cases hget : types.get? name with
  | none =>
    simp only [hget, Option.map_none] at h h'
    exact Except.ok.inj (h'.symm.trans h)
  | some type =>
    simp only [hget, Option.map_some] at h h'
    cases hbody : type.body with
    | struct fields =>
      obtain ⟨fields', hbody', -⟩ := a.replace_of_struct hget hbody
      simp only [TypeDef.isAlias, hbody, hbody', Bool.false_eq_true, if_false] at h h'
      exact Except.ok.inj (h'.symm.trans h)
    | _ =>
      have hreplace := a.replace_of_alias hget hbody
      simp only [hreplace, TypeDef.isAlias, hbody, if_true] at h h'
      rw [← hreplace] at h'
      exact typeRules_inlined hget h h'

/-- The same names lend the same rules. -/
theorem inherited_inlined {named : List String} {inherited inherited' : List (List Rule)}
    (h : named.mapM (Compiler.aliasRules ⟨types, options⟩) = .ok inherited)
    (h' : named.mapM (Compiler.aliasRules ⟨a.inlined, options⟩) = .ok inherited') :
    inherited' = inherited :=
  mapM_agree h h' fun _ _ _ _ => aliasRules_inlined

/-- A reference has the plan that it had if its shape has. -/
theorem Plans.inlined_of {ref : TypeRef} {here : List Rule} {plan plan' : Plan}
    (h : Compiler.Plans ⟨types, options⟩ ref here plan)
    (h' : Compiler.Plans ⟨a.inlined, options⟩ ref here plan')
    (hshape : ∀ access rules shape,
      Compiler.PlansAs ⟨types, options⟩ access rules shape plan →
      Compiler.PlansAs ⟨a.inlined, options⟩ access rules shape plan' → plan' = plan) :
    plan' = plan := by
  obtain ⟨resolved, inherited, hresolve, hinherited, hplans⟩ := h.inherited
  obtain ⟨resolved', inherited', hresolve', hinherited', hplans'⟩ := h'.inherited
  rw [resolve_inlined] at hresolve'
  cases hresolve.symm.trans hresolve'
  rw [inherited_inlined hinherited hinherited'] at hplans'
  exact hshape _ _ _ hplans hplans'

/-- The induction is on the plan. -/
theorem PlansAs.inlined {access : Access} {rules : List Rule} {shape : Shape} {plan plan' : Plan}
    (h : Compiler.PlansAs ⟨types, options⟩ access rules shape plan)
    (h' : Compiler.PlansAs ⟨a.inlined, options⟩ access rules shape plan') : plan' = plan := by
  induction plan generalizing access rules shape plan' with
  | scalar _ kind | struct _ name =>
    cases h
    cases h'
    rfl
  | list _ inner semantics ih =>
    cases h with
    | slice hsemantics hinner =>
      cases h' with
      | slice hsemantics' hinner' =>
        cases hsemantics.symm.trans hsemantics'
        rw [hinner.inlined_of hinner' fun _ _ _ => ih]
  | map _ key value ihKey ihValue =>
    cases h with
    | map hkey hvalue =>
      cases h' with
      | map hkey' hvalue' =>
        rw [hkey.inlined_of hkey' fun _ _ _ => ihKey,
          hvalue.inlined_of hvalue' fun _ _ _ => ihValue]

theorem plan_inlined {ref : TypeRef} {here : List Rule} {plan plan' : Plan}
    (h : Compiler.plan ⟨types, options⟩ ref here = .ok plan)
    (h' : Compiler.plan ⟨a.inlined, options⟩ ref here = .ok plan') : plan' = plan :=
  Plans.inlined_of ⟨_, h⟩ ⟨_, h'⟩ fun _ _ _ => PlansAs.inlined

/-- Without the alias, its rules are at the field and no longer inherited. -/
theorem plan_newField {own lent : List Rule} {plan plan' : Plan}
    (hlent : Compiler.typeRules ⟨types, options⟩ a.aliasType = .ok lent)
    (h : Compiler.plan ⟨types, options⟩ a.field.type own = .ok plan)
    (h' : Compiler.plan ⟨a.inlined, options⟩ a.newField.type (own ++ lent) = .ok plan') :
    ∃ named, plan.access.named = a.aliasType.name :: named ∧ plan' = plan.withNamed named := by
  obtain ⟨resolved, inherited, hresolve, hinherited, hplans⟩ := Plans.inherited ⟨_, h⟩
  obtain ⟨resolved', inherited', hresolve', hinherited', hplans'⟩ := Plans.inherited ⟨_, h'⟩
  rw [resolve_inlined] at hresolve'
  rw [a.field_type] at hresolve
  obtain ⟨named, hnamed, hunderlying⟩ := a.resolve_alias (mapError_succeeds_iff.mp hresolve)
  cases hunderlying.symm.trans (mapError_succeeds_iff.mp hresolve')
  refine ⟨named, by rw [hplans.access_eq, hnamed], ?_⟩
  -- The alias is the outermost name, so that its rules come right behind those of the field.
  have halias : Compiler.aliasRules ⟨types, options⟩ a.aliasType.name = .ok lent := by
    simp only [aliasRules, a.alias_known, TypeDef.isAlias, a.alias_body, if_true]
    exact hlent
  simp only [hnamed, List.mapM_cons, halias, bind_succeeds_iff, Except.ok.injEq,
    pure_succeeds_iff] at hinherited
  obtain ⟨_, rfl, others, hothers, rfl⟩ := hinherited
  rw [inherited_inlined hothers hinherited', List.append_assoc, ← List.flatten_cons] at hplans'
  rw [(hplans.withAccess _).inlined hplans', Plan.withNamed, hplans.access_eq]

/-! ## Fields -/

theorem field_inlined {u v v' : Unions} {field : FieldDef} {compiled compiled' : CompiledField}
    (h : Compiler.field ⟨types, options⟩ u field = .ok (compiled, v))
    (h' : Compiler.field ⟨a.inlined, options⟩ u field = .ok (compiled', v')) :
    compiled' = compiled ∧ v' = v := by
  obtain ⟨rules, plan, hrules, hplan, hunions, rfl⟩ := field_eq_ok h
  obtain ⟨rules', plan', hrules', hplan', hunions', rfl⟩ := field_eq_ok h'
  cases fieldRules_inlined hrules hrules'
  cases plan_inlined hplan hplan'
  exact ⟨rfl, Except.ok.inj (hunions'.symm.trans hunions)⟩

theorem addFieldRule_of_isPortable {rule : Rule} (h : rule.isPortable = true) (u : Unions)
    (field : String) : u.addFieldRule field rule = .ok u := by
  have hadd {rule : Rule} (h : rule.isPortable = true) (selector : Option ItemSelector) :
      u.add field selector rule = .ok u := by
    cases rule with
    | leaf constraint tag =>
      cases constraint with
      | unionMember | unionDiscriminator | zeroOrOneOf => cases h
      | _ => rfl
    | _ => rfl
  rw [Unions.addFieldRule, hadd h]
  cases rule with
  | within place inner tag =>
    cases place with
    | item selector => exact @hadd inner h (some selector)
    | _ => rfl
  | _ => rfl

theorem addFieldRules_of_isPortable {rules : List Rule}
    (h : ∀ rule ∈ rules, rule.isPortable = true) (u : Unions) (field : String) :
    rules.foldlM (Unions.addFieldRule field) u = .ok u := by
  induction rules with
  | nil => rfl
  | cons rule rules ih =>
    obtain ⟨hrule, hrules⟩ := List.forall_mem_cons.mp h
    rw [List.foldlM_cons, addFieldRule_of_isPortable hrule]
    exact ih hrules

/-- The rules of a type are no constraints that are not for types. -/
theorem hasConstraint_typeRules {c : Compiler} {type : TypeDef} {rules : List Rule}
    (h : c.typeRules type = .ok rules) {name : SimpleTag} (hscope : Scope.type ∉ name.scopes) :
    hasConstraint rules (fun constraint => constraint.tag == name) = false := by
  rw [hasConstraint, List.any_eq_false]
  intro rule hrule hasks
  cases rule with
  | leaf constraint tag =>
    have haccepts : c.AcceptsIn .type (.leaf constraint tag) := ⟨_, _, typeRules_accepts h hrule⟩
    rw [← eq_of_beq hasks] at hscope
    exact hscope haccepts.scope_mem
  | _ => cases hasks

theorem clear_of_typeRules {c : Compiler} {type : TypeDef} {rules : List Rule}
    (h : c.typeRules type = .ok rules) (gates : GateView) :
    ∀ constraint ∈ (activeRules gates rules).filterMap Rule.constraint?,
      constraint.isShortCircuit = false := by
  intro constraint hconstraint
  obtain ⟨active, hactive, hleaf⟩ := List.mem_filterMap.mp hconstraint
  obtain ⟨rule, hrule, hresolve⟩ := mem_activeRules_iff.mp hactive
  have haccepts : c.AcceptsIn .type active :=
    AcceptsIn.resolve ⟨_, _, typeRules_accepts h hrule⟩ hresolve
  cases active with
  | leaf found tag =>
    cases hleaf
    have hscope := haccepts.scope_mem
    cases constraint with
    | required | optional | forbidden | immutable | restriction =>
      simp [Constraint.tag, SimpleTag.scopes] at hscope
    | _ => rfl
  | _ => cases hleaf

section

variable {lent : List Rule}
variable (hlent : Compiler.typeRules ⟨types, options⟩ a.aliasType = .ok lent)
variable (hportable : ∀ rule ∈ lent, rule.isPortable = true)
variable (htransparent : ∀ rules, Compiler.fieldRules ⟨types, options⟩ a.field = .ok rules →
  hasConstraint rules (fun constraint => constraint.tag == .opaqueType) = false)

include hlent hportable htransparent

theorem field_newField {u v v' : Unions} {compiled compiled' : CompiledField}
    (h : Compiler.field ⟨types, options⟩ u a.field = .ok (compiled, v))
    (h' : Compiler.field ⟨a.inlined, options⟩ u a.newField = .ok (compiled', v')) :
    CompiledField.Inlined a.aliasType.name lent compiled compiled' ∧ v' = v := by
  obtain ⟨own, plan, hown, hplan, hunions, rfl⟩ := field_eq_ok h
  obtain ⟨rules, plan', hrules, hplan', hunions', rfl⟩ := field_eq_ok h'
  cases fieldRules_newField hown hlent hportable hrules
  obtain ⟨named, hnamed, rfl⟩ := plan_newField hlent hplan hplan'
  -- Tags that are not for types are not among those of an alias.
  have happend (name : SimpleTag) (hscope : Scope.type ∉ name.scopes) :
      hasConstraint (own ++ lent) (fun constraint => constraint.tag == name) =
        hasConstraint own fun constraint => constraint.tag == name := by
    have hnone := hasConstraint_typeRules hlent hscope
    rw [hasConstraint] at hnone
    rw [hasConstraint, List.any_append, hnone, Bool.or_false, hasConstraint]
  rw [happend _ (by decide), happend _ (by decide)]
  -- Rules of an alias form no unions, so that the field adds to them what it added.
  rw [List.foldlM_append, bind_succeeds_iff] at hunions'
  obtain ⟨_, hown', hlent'⟩ := hunions'
  cases hown'.symm.trans hunions
  rw [addFieldRules_of_isPortable hportable] at hlent'
  exact ⟨.inlined hnamed (htransparent own hown), (Except.ok.inj hlent').symm⟩

theorem fields_inlined {type : String} {fields fields' : List FieldDef}
    (hfields : List.Forall₂ a.Replaces fields fields') {u v v' : Unions}
    {compiled compiled' : List CompiledField}
    (h : Compiler.fields ⟨types, options⟩ type u fields = .ok (compiled, v))
    (h' : Compiler.fields ⟨a.inlined, options⟩ type u fields' = .ok (compiled', v')) :
    List.Forall₂ (CompiledField.Inlined a.aliasType.name lent) compiled compiled' ∧ v' = v := by
  induction hfields generalizing u compiled compiled' with
  | nil =>
    cases h
    cases h'
    exact ⟨.nil, rfl⟩
  | @cons field field' fields fields' hfield hrest ih =>
    obtain ⟨first, u₁, others, hfirst, hothers, rfl⟩ := fields_cons_eq_ok h
    obtain ⟨first', u₁', others', hfirst', hothers', rfl⟩ := fields_cons_eq_ok h'
    have hreplaced : CompiledField.Inlined a.aliasType.name lent first first' ∧ u₁' = u₁ := by
      cases hfield with
      | same =>
        obtain ⟨rfl, hunions⟩ := field_inlined hfirst hfirst'
        exact ⟨.same first', hunions⟩
      | inlined => exact field_newField hlent hportable htransparent hfirst hfirst'
    obtain ⟨hhead, rfl⟩ := hreplaced
    obtain ⟨htail, rfl⟩ := ih hothers hothers'
    exact ⟨.cons hhead htail, rfl⟩

theorem structBody_inlined {type : String} {fields fields' : List FieldDef}
    (hfields : List.Forall₂ a.Replaces fields fields') {body body' : CompiledStruct}
    (h : Compiler.structBody ⟨types, options⟩ type fields = .ok body)
    (h' : Compiler.structBody ⟨a.inlined, options⟩ type fields' = .ok body') :
    CompiledStruct.Inlined a.aliasType.name lent body body' := by
  obtain ⟨u, hcompiled, hunions, hzeroOrOne⟩ := structBody_eq_ok h
  obtain ⟨u', hcompiled', hunions', hzeroOrOne'⟩ := structBody_eq_ok h'
  obtain ⟨hall, rfl⟩ := fields_inlined hlent hportable htransparent hfields hcompiled hcompiled'
  exact ⟨hall, hunions'.trans hunions.symm, hzeroOrOne'.trans hzeroOrOne.symm⟩

theorem definition_inlined {name : String} {type : TypeDef} (htype : types.get? name = some type)
    {compiled compiled' : CompiledType}
    (h : Compiler.definition ⟨types, options⟩ type = .ok compiled)
    (h' : Compiler.definition ⟨a.inlined, options⟩ (a.replace type) = .ok compiled') :
    CompiledType.Inlined a.aliasType.name lent compiled compiled' := by
  obtain ⟨hname, hrules, hbody⟩ := definition_spec h
  obtain ⟨hname', hrules', hbody'⟩ := definition_spec h'
  rw [a.replace_name] at hname' hbody'
  refine ⟨hname'.trans hname.symm, typeRules_inlined htype hrules hrules', ?_⟩
  rcases hbody with ⟨fields, body, htypeBody, hcompiled, hstruct⟩ |
    ⟨underlying, constants, plan, htypeBody, hcompiled, hplan⟩
  · obtain ⟨fields', hnewBody, hfields⟩ := a.replace_of_struct htype htypeBody
    rcases hbody' with ⟨fields'', body', htypeBody', hcompiled', hstruct'⟩ |
      ⟨_, _, _, htypeBody', -, -⟩
    · cases hnewBody.symm.trans htypeBody'
      rw [hcompiled, hcompiled']
      exact .struct (structBody_inlined hlent hportable htransparent hfields hstruct hstruct')
    · cases hnewBody.symm.trans htypeBody'
  · rw [a.replace_of_alias htype htypeBody] at hbody'
    rcases hbody' with ⟨_, _, htypeBody', -, -⟩ | ⟨_, _, plan', -, hcompiled', hplan'⟩
    · cases htypeBody.symm.trans htypeBody'
    · rw [hcompiled, hcompiled', plan_inlined hplan hplan']
      exact .plan plan

end

end Compiler

/-! ## Whole schemas -/

/-- The schema without the alias in the field. -/
theorem schema_inlined {types : Universe} {options : Options} {a : AliasField types}
    (hok : (compile types options).isOk = true) (hok' : (compile a.inlined options).isOk = true)
    {lent : List Rule} (hlent : Compiler.typeRules ⟨types, options⟩ a.aliasType = .ok lent)
    (hportable : ∀ rule ∈ lent, rule.isPortable = true)
    (htransparent : ∀ rules, Compiler.fieldRules ⟨types, options⟩ a.field = .ok rules →
      hasConstraint rules (fun constraint => constraint.tag == .opaqueType) = false) :
    Schema.Inlined a.aliasType.name lent (compile types options).schema
      (compile a.inlined options).schema where
  types wanted := by
    cases htype : types.get? wanted with
    | none =>
      have htype' : a.inlined.get? wanted = none := by rw [a.inlined_get?, htype, Option.map_none]
      rw [schema_get?_eq_none htype, schema_get?_eq_none htype']
      exact .none
    | some type =>
      have htype' : a.inlined.get? wanted = some (a.replace type) := by
        rw [a.inlined_get?, htype, Option.map_some]
      obtain ⟨compiled, hget, hcompiled⟩ := get?_of_isOk hok htype
      obtain ⟨compiled', hget', hcompiled'⟩ := get?_of_isOk hok' htype'
      rw [hget, hget']
      exact .some
        (Compiler.definition_inlined hlent hportable htransparent htype hcompiled hcompiled')
  lends := by
    obtain ⟨compiled, hget, hcompiled⟩ := get?_of_isOk hok a.alias_known
    obtain ⟨-, hrules, -⟩ := Compiler.definition_spec hcompiled
    exact ⟨compiled, hget, Except.ok.inj (hrules.symm.trans hlent)⟩
  clear := Compiler.clear_of_typeRules hlent

end TaggedSchema
