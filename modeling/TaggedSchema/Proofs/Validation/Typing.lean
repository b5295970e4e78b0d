import TaggedSchema.Proofs.Schema.Typing
import TaggedSchema.Proofs.Validation.Descent

/-!
# The types of sites

A walk only comes to sites where the plan is one of a reference and all rules that apply have been
accepted for values of the shape that the reference leads to. This is so at a whole object, and goes
over to every site inside.
-/

namespace TaggedSchema

/-- The plan at the site is one of a reference for which the rules there have been accepted. -/
structure Site.Typed (c : Compiler) (site : Site) : Prop where
  accepted : ∃ ref, c.HasPlan ref site.plan ∧ ∀ rule ∈ site.rules, c.AcceptsAt ref rule

namespace Site.Typed

section

variable {types : Universe} {options : Options} {gates : GateView} {site : Site}

/-- All rules that apply at the site, those of named types included, are accepted for the shape of
its values. -/
theorem rulesAt (h : site.Typed ⟨types, options⟩) (gates : GateView) :
    ∃ shape, Compiler.PlansShape ⟨types, options⟩ shape site.plan ∧
      ∀ rule ∈ Context.rulesAt ⟨(compile types options).schema, gates⟩ site,
        Compiler.AcceptsFor ⟨types, options⟩ shape rule := by
  obtain ⟨ref, hplan, haccepted⟩ := h.accepted
  obtain ⟨resolved, hresolve, hplans, hnamed⟩ := hplan.resolves
  refine ⟨resolved.shape, hplans, ?_⟩
  intro active hactive
  obtain ⟨rule, hgiven, hrule⟩ := Context.exists_givenAt hactive
  apply Compiler.AcceptsFor.resolve _ hrule
  cases hgiven with
  | own hrule =>
    obtain ⟨scope, around, haccepts⟩ := haccepted rule hrule
    exact ⟨scope, ref, around, resolved, haccepts, hresolve, rfl⟩
  | lent hname htype hrule =>
    -- Every name on the way leads to the same shape, so that its rules are for the same values.
    rw [hnamed] at hname
    obtain ⟨resolved', hresolve', hshape⟩ :=
      Universe.resolve_named (mapError_succeeds_iff.mp hresolve) hname
    obtain ⟨definition, -, hdefinition⟩ := definition_of_mem_schema (Catalog.mem_of_get? htype)
    obtain ⟨hsame, hrules, -⟩ := Compiler.definition_spec hdefinition
    have haccepts := Compiler.typeRules_accepts hrules hrule
    rw [← hsame, Catalog.name_of_findEntry htype] at haccepts
    exact ⟨_, _, _, resolved', haccepts, mapError_succeeds_iff.mpr hresolve', hshape⟩

/-- At a whole object the rules of its type apply. -/
theorem root {name : String} {type : CompiledType}
    (htype : (compile types options).schema.get? name = some type) (old : Option Value) :
    (Site.root type.plan old).Typed ⟨types, options⟩ := by
  obtain ⟨definition, hmem, hdefinition⟩ := definition_of_mem_schema (Catalog.mem_of_get? htype)
  obtain ⟨hname, -, hbody⟩ := Compiler.definition_spec hdefinition
  have hget : types.get? definition.name = some definition :=
    Catalog.findEntry_of_mem types.sorted hmem
  refine ⟨.named definition.name, ?_, nofun⟩
  rcases hbody with ⟨fields, body, hstruct, hcompiled, -⟩ | ⟨_, _, plan, -, hcompiled, hplan⟩
  · refine ⟨1, [], ?_⟩
    have hresolve : Compiler.resolve ⟨types, options⟩ (.named definition.name) =
        .ok ⟨.struct definition.name, false, [definition.name]⟩ := by
      rw [Compiler.resolve, Universe.resolve, Universe.follow.eq_def]
      simp only [TypeRef.pointee, List.contains_nil, Bool.false_eq_true, if_false, hget, hstruct]
      rfl
    have hlends : Compiler.aliasRules ⟨types, options⟩ definition.name = .ok [] := by
      simp only [Compiler.aliasRules, hget, TypeDef.isAlias, hstruct, Bool.false_eq_true, if_false]
    rw [Compiler.planWithin, hresolve]
    simp only [bind, Except.bind, List.mapM_cons, hlends, List.mapM_nil, Site.root,
      CompiledType.plan, hcompiled, hname]
    rfl
  · rw [Site.root, CompiledType.plan, hcompiled]
    exact Compiler.hasPlan_of_plan hplan

theorem field {name : String} {body : CompiledStruct}
    (hbody : (compile types options).schema.struct? name = some body) {field : CompiledField}
    (hfield : field ∈ body.fields) (site : Site) (isShallow : Bool) :
    (site.field field field.rules isShallow).Typed ⟨types, options⟩ := by
  obtain ⟨definition, hcompiles⟩ := compilesTo_of_struct? hbody hfield
  refine ⟨definition.type, Compiler.hasPlan_of_plan hcompiles.plan, ?_⟩
  intro rule hrule
  exact ⟨_, _, Compiler.fieldRules_accepts hcompiles.rules hrule⟩

section

variable {access : Access} {rule : Rule} {tag : String}
variable (h : site.Typed ⟨types, options⟩)

include h

theorem subfield {type name : String} (hplan : site.plan = .struct access type)
    (hrule : .within (.subfield name) rule tag ∈
      Context.rulesAt ⟨(compile types options).schema, gates⟩ site)
    {body : CompiledStruct} (hbody : (compile types options).schema.struct? type = some body)
    {field : CompiledField} (hfield : body.field? name = some field) :
    (site.field field [rule] true).Typed ⟨types, options⟩ := by
  obtain ⟨shape, hshape, haccepted⟩ := h.rulesAt gates
  rw [hplan] at hshape
  cases hshape.of_struct
  obtain ⟨definition, fieldDef, hget, hfieldDef, haccepts⟩ := (haccepted _ hrule).subfield
  obtain ⟨definition', hget', hfields⟩ := fields_of_struct? hbody
  cases hget.symm.trans hget'
  obtain ⟨found, hfound, hcompiles⟩ := Compiler.exists_compiled_field hfields hfieldDef
  cases hfound.symm.trans hfield
  refine ⟨fieldDef.type, Compiler.hasPlan_of_plan hcompiles.plan, ?_⟩
  exact List.forall_mem_singleton.mpr haccepts

section

variable {inner : Plan} {semantics : ListSemantics}
variable (hplan : site.plan = .list access inner semantics)

include hplan

theorem item {selector : ItemSelector} (hrule : .within (.item selector) rule tag ∈
      Context.rulesAt ⟨(compile types options).schema, gates⟩ site) (path : Path) :
    (site.item path selector inner rule).Typed ⟨types, options⟩ := by
  obtain ⟨shape, hshape, haccepted⟩ := h.rulesAt gates
  rw [hplan] at hshape
  obtain ⟨ref, rfl, helement⟩ := hshape.of_list
  obtain ⟨-, -, haccepts⟩ := (haccepted _ hrule).item
  exact ⟨ref, helement, List.forall_mem_singleton.mpr haccepts⟩

/-- The items that a rule chooses by their key fields are structs. -/
theorem item_isStruct {selector : ItemSelector} (hrule : .within (.item selector) rule tag ∈
      Context.rulesAt ⟨(compile types options).schema, gates⟩ site) :
    selector.keys ≠ [] ∧ ∃ access name, inner = .struct access name := by
  obtain ⟨shape, hshape, haccepted⟩ := h.rulesAt gates
  rw [hplan] at hshape
  obtain ⟨ref, rfl, helement⟩ := hshape.of_list
  obtain ⟨hkeys, ⟨resolved, name, hresolve, hstruct⟩, -⟩ := (haccepted _ hrule).item
  obtain ⟨access, hname⟩ := helement.of_struct hresolve hstruct
  exact ⟨hkeys, access, name, hname⟩

theorem element (position : Nat) (item : Value) :
    (site.element inner semantics (rulesWithin Place.isEachVal
      (Context.rulesAt ⟨(compile types options).schema, gates⟩ site)) position item).Typed
        ⟨types, options⟩ := by
  obtain ⟨shape, hshape, haccepted⟩ := h.rulesAt gates
  rw [hplan] at hshape
  obtain ⟨ref, rfl, helement⟩ := hshape.of_list
  refine ⟨ref, helement, ?_⟩
  intro rule hinner
  obtain ⟨place, tag, hplace, hrule⟩ := mem_rulesWithin_iff.mp hinner
  exact (haccepted _ hrule).element hplace

end

section

variable {key value : Plan} (hplan : site.plan = .map access key value)

include hplan

theorem entry (name : String) :
    (site.entry value (rulesWithin Place.isEachVal
      (Context.rulesAt ⟨(compile types options).schema, gates⟩ site)) name).Typed
        ⟨types, options⟩ := by
  obtain ⟨shape, hshape, haccepted⟩ := h.rulesAt gates
  rw [hplan] at hshape
  obtain ⟨keyRef, valueRef, rfl, -, hvalue⟩ := hshape.of_map
  refine ⟨valueRef, hvalue, ?_⟩
  intro inner hinner
  obtain ⟨place, tag, hplace, hrule⟩ := mem_rulesWithin_iff.mp hinner
  exact (haccepted _ hrule).entry hplace

theorem mapKey (name : String) :
    (site.mapKey key (rulesWithin Place.isEachKey
      (Context.rulesAt ⟨(compile types options).schema, gates⟩ site)) name).Typed
        ⟨types, options⟩ := by
  obtain ⟨shape, hshape, haccepted⟩ := h.rulesAt gates
  rw [hplan] at hshape
  obtain ⟨keyRef, valueRef, rfl, hkey, -⟩ := hshape.of_map
  refine ⟨keyRef, hkey, ?_⟩
  intro inner hinner
  obtain ⟨place, tag, hplace, hrule⟩ := mem_rulesWithin_iff.mp hinner
  exact (haccepted _ hrule).key hplace

end

end

end

end Site.Typed

end TaggedSchema
