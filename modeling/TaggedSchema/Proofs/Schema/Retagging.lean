import TaggedSchema.Proofs.Rule.Retagging
import TaggedSchema.Proofs.Schema.Isolation
import TaggedSchema.Proofs.Schema.Shaping

/-!
# Compiling a field with other tags

If the tags of one field are replaced by others with the same shaping rules, then everything is
compiled into what it was, but for the rules of this field.
-/

namespace TaggedSchema

/-- The field with these rules instead of its own. -/
def CompiledField.withRules (rules : List Rule) (field : CompiledField) : CompiledField :=
  { field with rules }

/-- The struct, whose field at the position has these rules. -/
def CompiledStruct.rerule (position : Nat) (rules : List Rule) (body : CompiledStruct) :
    CompiledStruct :=
  { body with fields := body.fields.modify position (CompiledField.withRules rules) }

/-- If the type is the struct `owner`, its field at the position has these rules. -/
def CompiledType.reruleAt (owner : String) (position : Nat) (rules : List Rule)
    (type : CompiledType) : CompiledType :=
  match type.body with
  | .struct body =>
    if type.name = owner then { type with body := .struct (body.rerule position rules) } else type
  | .alias _ => type

/-- The second schema is the first one, with other rules at the field at the position of the struct
`owner`. -/
structure Schema.Rerules (schema schema' : Schema) (owner : String) (position : Nat)
    (field : CompiledField) (rules : List Rule) : Prop where
  get? (name : String) :
    schema'.get? name = (schema.get? name).map (CompiledType.reruleAt owner position rules)
  field : ∃ body, schema.struct? owner = some body ∧ body.fields[position]? = some field

namespace Compiler

variable {c c' : Compiler} {u v v' : Unions} {field : FieldDef} {fields : List FieldDef}
variable {tags : List String} {rules rules' : List Rule} {type : String} {position : Nat}

/-! ## One field -/

/-- A field with other tags and the same shaping rules differs in its rules only. -/
theorem Alike.field_retag (h : c.Alike c')
    (hlends : ∀ name, c'.aliasRules name = c.aliasRules name)
    (hrules : c.fieldRules field = .ok rules)
    (hrules' : c'.fieldRules (field.retag tags) = .ok rules')
    (hshapes : rules'.filter Rule.shapes = rules.filter Rule.shapes)
    {compiled compiled' : CompiledField} (hfield : c.field u field = .ok (compiled, v))
    (hfield' : c'.field u (field.retag tags) = .ok (compiled', v')) :
    compiled' = compiled.withRules rules' ∧ v' = v ∧ compiled.rules = rules := by
  obtain ⟨_, plan, hown, hplan, hunions, rfl⟩ := field_eq_ok hfield
  obtain ⟨_, plan', hown', hplan', hunions', rfl⟩ := field_eq_ok hfield'
  cases hown.symm.trans hrules
  cases hown'.symm.trans hrules'
  have hplanned := h.plan_eq hplan' fun name _ => hlends name
  change c.plan field.type rules' = .ok plan' at hplanned
  change rules'.foldlM (Unions.addFieldRule field.jsonName) u = .ok v' at hunions'
  rw [seesLists_shapes.plan_congr hshapes] at hplanned
  rw [foldlM_addFieldRule_congr hshapes] at hunions'
  cases hplan.symm.trans hplanned
  cases hunions.symm.trans hunions'
  refine ⟨?_, rfl, rfl⟩
  have hmark (tag : SimpleTag) (hsettled : tag.isUnconditional = true) :
      hasConstraint rules' (fun constraint => constraint.tag == tag) =
        hasConstraint rules fun constraint => constraint.tag == tag := by
    apply hasConstraint_congr _ hshapes
    intro constraint hsame
    rw [isSettled_eq, beq_iff_eq.mp hsame, hsettled]
  rw [hmark .declarativeValidationNative rfl, hmark .opaqueType rfl]
  rfl

/-- The step is the field at the position, and the induction is on the fields before it. -/
theorem Alike.fields_retag (h : c.Alike c')
    (hlends : ∀ name, c'.aliasRules name = c.aliasRules name)
    (hrules : c.fieldRules field = .ok rules)
    (hrules' : c'.fieldRules (field.retag tags) = .ok rules')
    (hshapes : rules'.filter Rule.shapes = rules.filter Rule.shapes)
    (hposition : fields[position]? = some field) {compiled compiled' : List CompiledField}
    (hfields : c.fields type u fields = .ok (compiled, v))
    (hfields' : c'.fields type u (fields.modify position (FieldDef.retag tags)) =
      .ok (compiled', v')) :
    compiled' = compiled.modify position (CompiledField.withRules rules') ∧ v' = v ∧
      ∃ found, compiled[position]? = some found ∧ found.rules = rules ∧
        found.jsonName = field.jsonName := by
  induction fields generalizing position u compiled compiled' with
  | nil => cases hposition
  | cons other fields ih =>
    obtain ⟨first, u₁, others, hfirst, hothers, rfl⟩ := fields_cons_eq_ok hfields
    cases position with
    | zero =>
      cases hposition
      rw [List.modify_zero_cons] at hfields'
      obtain ⟨first', u₁', others', hfirst', hothers', rfl⟩ := fields_cons_eq_ok hfields'
      obtain ⟨rfl, rfl, hown⟩ := h.field_retag hlends hrules hrules' hshapes hfirst hfirst'
      have hkept := h.fields_eq hothers' fun _ _ name _ => hlends name
      cases hothers.symm.trans hkept
      exact ⟨rfl, rfl, first, rfl, hown, (field_compilesTo hfirst).jsonName⟩
    | succ position =>
      rw [List.modify_succ_cons] at hfields'
      obtain ⟨first', u₁', others', hfirst', hothers', rfl⟩ := fields_cons_eq_ok hfields'
      have hsame : c.field u other = .ok (first', u₁') := by
        rw [h.field_eq hfirst']
        obtain ⟨_, plan, -, hplan, -, rfl⟩ := field_eq_ok hfirst'
        rw [h.plan_eq hplan fun name _ => hlends name]
        rfl
      cases hfirst.symm.trans hsame
      obtain ⟨rfl, rfl, hfound⟩ := ih hposition hothers hothers'
      exact ⟨rfl, rfl, hfound⟩

/-! ## Definitions -/

section

variable {types : Universe} {options : Options} {owner : String}

theorem alike_retag (types : Universe) (options : Options) (owner : String) (position : Nat)
    (tags : List String) :
    Alike ⟨types, options⟩ ⟨types.retag owner position tags, options⟩ where
  options := rfl
  types := types.sameSignatures_retag owner position tags

/-- The rules of a type are those of its own tags, whatever fields it has. -/
theorem typeRules_retagAt (type : TypeDef) :
    typeRules ⟨types.retag owner position tags, options⟩ (type.retagAt owner position tags) =
      typeRules ⟨types, options⟩ type := by
  rw [typeRules, TypeDef.tags_retagAt, TypeDef.name_retagAt, ← typeRules]
  exact (alike_retag types options owner position tags).typeRules
    (types.constants?_retag owner position tags type.name)

theorem aliasRules_retag (name : String) :
    aliasRules ⟨types.retag owner position tags, options⟩ name =
      aliasRules ⟨types, options⟩ name := by
  rw [aliasRules, aliasRules, types.get?_retag]
  cases types.get? name with
  | none => rfl
  | some type =>
    have hkind : (type.retagAt owner position tags).isAlias = type.isAlias := by
      rw [← TypeDef.isAlias_untagged, TypeDef.untagged_retagAt, TypeDef.isAlias_untagged]
    simp only [Option.map_some, typeRules_retagAt, hkind]

/-- A definition that is left as it is is compiled into what it was. -/
theorem definition_retag_of_same {type : TypeDef} {compiled : CompiledType}
    (htype : types.get? type.name = some type)
    (hsame : type.retagAt owner position tags = type)
    (h : definition ⟨types.retag owner position tags, options⟩ type = .ok compiled) :
    definition ⟨types, options⟩ type = .ok compiled := by
  refine (alike_retag types options owner position tags).definition_eq ?_ h
    fun _ _ name _ => aliasRules_retag name
  change (types.retag owner position tags).get? type.name = types.get? type.name
  rw [types.get?_retag, htype, Option.map_some, hsame]

/-- The struct is compiled into what it was, but for the rules of the field. -/
theorem definition_retag_of_struct {type : TypeDef} {compiled compiled' : CompiledType}
    (hname : type.name = owner) (hbody : type.body = .struct fields)
    (hposition : fields[position]? = some field)
    (hrules : fieldRules ⟨types, options⟩ field = .ok rules)
    (hrules' : fieldRules ⟨types.retag owner position tags, options⟩ (field.retag tags) =
      .ok rules')
    (hshapes : rules'.filter Rule.shapes = rules.filter Rule.shapes)
    (h : definition ⟨types, options⟩ type = .ok compiled)
    (h' : definition ⟨types.retag owner position tags, options⟩
      (type.retagAt owner position tags) = .ok compiled') :
    compiled' = compiled.reruleAt owner position rules' ∧
      ∃ body found, compiled.body = .struct body ∧ body.fields[position]? = some found ∧
        found.rules = rules ∧ found.jsonName = field.jsonName := by
  have halike := alike_retag types options owner position tags
  obtain ⟨hcompiled, hown, ⟨_, body, hstruct, hmade, hbuilt⟩ | ⟨_, _, _, halias, -, -⟩⟩ :=
    definition_spec h
  · obtain ⟨hcompiled', hown', hmade'⟩ := definition_spec h'
    rw [typeRules_retagAt] at hown'
    rw [TypeDef.retagAt_of_struct hname hbody] at hcompiled' hmade'
    obtain ⟨_, body', hstruct', hmade', hbuilt'⟩ | ⟨_, _, _, halias, -, -⟩ := hmade'
    · cases hbody.symm.trans hstruct
      cases hstruct'
      obtain ⟨made, u, hfields, -, rfl⟩ := structBody_eq_ok_iff.mp hbuilt
      obtain ⟨made', u', hfields', -, rfl⟩ := structBody_eq_ok_iff.mp hbuilt'
      obtain ⟨rfl, rfl, found, hfound, hfoundRules, hfoundName⟩ := halike.fields_retag
        (fun name => aliasRules_retag name) hrules hrules' hshapes hposition hfields hfields'
      obtain ⟨name, own, compiledBody⟩ := compiled
      obtain ⟨name', own', compiledBody'⟩ := compiled'
      cases hown.symm.trans hown'
      dsimp only at hcompiled hcompiled' hmade hmade'
      subst hcompiled hcompiled' hmade hmade'
      refine ⟨?_, _, found, rfl, hfound, hfoundRules, hfoundName⟩
      simp only [CompiledType.reruleAt, if_pos hname]
      rfl
    · cases halias
  · cases hbody.symm.trans halias

end

end Compiler

/-! ## Whole universes -/

section

variable {types : Universe} {options : Options} {owner : String} {position : Nat}
variable {type : TypeDef} {field : FieldDef}

theorem CompiledType.reruleAt_of_ne {compiled : CompiledType} {rules : List Rule}
    (h : compiled.name ≠ owner) : compiled.reruleAt owner position rules = compiled := by
  rw [reruleAt]
  split
  next => rw [if_neg h]
  next => rfl

theorem exists_fieldRules {compiled : CompiledType}
    (h : Compiler.definition ⟨types, options⟩ type = .ok compiled) (hfield : field ∈ type.fields) :
    ∃ rules, Compiler.fieldRules ⟨types, options⟩ field = .ok rules := by
  obtain ⟨body, hmade⟩ := Compiler.definition_struct h (TypeDef.body_of_mem_fields hfield)
  obtain ⟨made, -, hcompiles⟩ := exists_of_forall₂ (Compiler.definition_fields h hmade).flip hfield
  exact ⟨made.rules, hcompiles.rules⟩

/-- All types but the one with the field are in the schema as they were. -/
theorem schema_get?_retag_of_ne {tags : List String} {name : String} (hname : name ≠ owner)
    (hok' : (compile (types.retag owner position tags) options).isOk = true) :
    (compile (types.retag owner position tags) options).schema.get? name =
      (compile types options).schema.get? name := by
  have hget' := types.get?_retag owner position tags name
  cases hget : types.get? name with
  | none =>
    rw [hget, Option.map_none] at hget'
    rw [schema_get?_eq_none hget, schema_get?_eq_none hget']
  | some other =>
    have hother : other.name = name := Catalog.name_of_findEntry hget
    have hsame : other.retagAt owner position tags = other := TypeDef.retagAt_of_ne (hother ▸ hname)
    rw [hget, Option.map_some, hsame] at hget'
    obtain ⟨kept, hkept, hdefinition⟩ := get?_of_isOk hok' hget'
    rw [hkept, (schema_get?_eq_some_iff hget).mpr
      (Compiler.definition_retag_of_same (hother ▸ hget) hsame hdefinition)]

/-- If lines of a field are replaced in a universe that is accepted before and after, the rules of
the lines before and behind them stay. With the same shaping rules in these lines, nothing else of
the schema changes. -/
theorem FieldLines.exists_rerules (a : FieldLines types) {lines' : List String}
    (hok : (compile types options).isOk = true)
    (hok' : (compile (a.replaced lines') options).isOk = true) :
    ∃ before between between' after,
      Compiler.BuildsLines ⟨types, options⟩ a.field a.lines between ∧
      Compiler.BuildsLines ⟨types, options⟩ a.field lines' between' ∧
      (between'.filter Rule.shapes = between.filter Rule.shapes →
        ∃ compiled, compiled.rules = before ++ between ++ after ∧
          compiled.jsonName = a.field.jsonName ∧
          Schema.Rerules (compile types options).schema
            (compile (a.replaced lines') options).schema a.type.name a.position compiled
            (before ++ between' ++ after)) := by
  have hbody := TypeDef.body_of_mem_fields (List.mem_of_getElem? a.field_position)
  have htype' := types.get?_retag a.type.name a.position (a.front ++ lines' ++ a.back) a.type.name
  rw [a.type_known, Option.map_some] at htype'
  have hposition' : (a.type.retagAt a.type.name a.position (a.front ++ lines' ++ a.back)).fields[
      a.position]? = some (a.field.retag (a.front ++ lines' ++ a.back)) :=
    TypeDef.getElem?_fields_retagAt rfl a.field_position
  obtain ⟨compiled, hcompiled, hdefinition⟩ := get?_of_isOk hok a.type_known
  obtain ⟨compiled', hcompiled', hdefinition'⟩ := get?_of_isOk hok' htype'
  obtain ⟨rules, hrules⟩ :=
    exists_fieldRules hdefinition (List.mem_of_getElem? a.field_position)
  obtain ⟨rules', hrules'⟩ := exists_fieldRules hdefinition' (List.mem_of_getElem? hposition')
  obtain ⟨before, between, between', after, hbetween, hbetween', rfl, rfl⟩ :=
    (Compiler.alike_retag types options _ _ _).fieldRules_replaced a.field_tags hrules hrules'
  refine ⟨before, between, between', after, hbetween, hbetween', fun hshapes => ?_⟩
  have hshapesAll : (before ++ between' ++ after).filter Rule.shapes =
      (before ++ between ++ after).filter Rule.shapes := by
    simp only [List.filter_append, hshapes]
  obtain ⟨hsame, body, found, hmade, hfound, hfoundRules, hfoundName⟩ :=
    Compiler.definition_retag_of_struct rfl hbody a.field_position hrules hrules' hshapesAll
      hdefinition hdefinition'
  refine ⟨found, hfoundRules, hfoundName, ?_, body, ?_, hfound⟩
  · intro name
    by_cases hname : name = a.type.name
    · rw [hname, hcompiled', hcompiled, hsame, Option.map_some]
    · rw [FieldLines.replaced, schema_get?_retag_of_ne hname hok']
      cases hget : (compile types options).schema.get? name with
      | none => rfl
      | some kept =>
        have hkept : kept.name ≠ a.type.name := by rwa [Catalog.name_of_findEntry hget]
        rw [Option.map_some, CompiledType.reruleAt_of_ne hkept]
  · simp [Schema.struct?, hcompiled, hmade]

end

end TaggedSchema
