import TaggedSchema.Proofs.Rule.Exclusions
import TaggedSchema.Proofs.Schema.Compiled
import TaggedSchema.Proofs.Validation.Descent

/-!
# Values of an enumeration

A text is a value of an enumeration when a constant with this value is not taken out under the
gates. Any other text is refused with the list of what is allowed.
-/

namespace TaggedSchema

namespace Compiler

variable {c : Compiler} {name : String} {type : TypeDef} {constants : List ConstantDef}
variable {compiled : CompiledType}

/-- An alias of a text is a text. -/
theorem resolve_alias_string {resolved : Resolved} (htype : c.types.get? name = some type)
    (hbody : type.body = .alias (.scalar .string) constants)
    (h : c.resolve (.named name) = .ok resolved) :
    resolved = ⟨.scalar .string, false, [name]⟩ := by
  rw [resolve, mapError_succeeds_iff, Universe.resolve, Universe.follow] at h
  simp only [TypeRef.pointee, List.contains_nil, Bool.false_eq_true, if_false, htype, hbody] at h
  cases hsize : c.types.size with
  | zero =>
    rw [hsize] at h
    cases h
  | succ spare =>
    rw [hsize] at h
    dsimp only at h
    rw [Universe.follow] at h
    exact (Except.ok.inj h).symm

theorem plan_alias_string {plan : Plan} (htype : c.types.get? name = some type)
    (hbody : type.body = .alias (.scalar .string) constants)
    (h : c.plan (.named name) [] = .ok plan) : plan = .scalar ⟨false, [name]⟩ .string := by
  obtain ⟨resolved, inherited, hresolve, -, hplans⟩ := Plans.inherited ⟨_, h⟩
  rw [resolve_alias_string htype hbody hresolve] at hplans
  cases hplans with
  | scalar => rfl

/-- If the only known tag of a type is that of an enumeration, its only rule is one. -/
theorem typeRules_enumeration {rules : List Rule} (htype : c.types.get? type.name = some type)
    {underlying : TypeRef} (hbody : type.body = .alias underlying constants)
    (htags : ((c.compiledTags .type type.tags).filter Tag.isKnown).map Tag.name = ["enum"])
    (h : c.typeRules type = .ok rules) :
    ∃ members tag, constants.mapM c.enumMember = .ok members ∧
      rules = [.leaf (.enumeration members) tag] := by
  rw [typeRules, bind_succeeds_iff] at h
  obtain ⟨tags, hparse, h⟩ := h
  rw [compiledTags_of_parseLines (mapError_succeeds_iff.mp hparse)] at htags
  obtain ⟨tag, honly, hname⟩ := List.map_eq_singleton_iff.mp htags
  obtain ⟨built, hbuilt, rfl⟩ := (buildsRules_of_rules h).filter_isKnown
  rw [List.filter_filter] at honly hbuilt
  simp only [Bool.and_comm] at honly hbuilt
  rw [honly, mapM_succeeds_iff, List.forall₂_cons_left_iff] at hbuilt
  obtain ⟨output, rest, hbuild, hrest, rfl⟩ := hbuilt
  cases hrest
  have henum : Directive.ofName? tag.name = some (.simple .enum) := by
    rw [hname]
    rfl
  obtain ⟨constraint, hconstraint, rfl⟩ := build_simple henum hbuild
  have hconstraint : c.enumeration tag (.named type.name) = .ok constraint := hconstraint
  obtain ⟨_, type', _, constants', _, members, ⟨⟩, htype', hbody', -, -, hmembers, rfl⟩ :=
    enumeration_eq_ok hconstraint
  cases htype.symm.trans htype'
  cases hbody.symm.trans hbody'
  exact ⟨members, tag.raw, hmembers, rfl⟩

end Compiler

namespace Context

variable {c : Context} {type : CompiledType} {name tag : String} {members : List EnumMember}

/-- A text is checked as an enumeration that is the only rule of its type. -/
theorem walk_enumeration (htype : c.schema.get? name = some type)
    (hrules : type.rules = [.leaf (.enumeration members) tag]) (text : String) :
    c.walk (.string text) (.root (.scalar ⟨false, [name]⟩ .string) none) =
      if (allowedValues c.gates members).contains text then []
      else [.notSupported .root (.string text) (allowedValues c.gates members) "enum"] := by
  have hlent : c.rulesAt (.root (.scalar ⟨false, [name]⟩ .string) none) =
      [.leaf (.enumeration members) tag] := by
    simp only [rulesAt, Site.root, lentRules, Plan.access, List.flatMap_cons, htype, hrules]
    rfl
  have hchecked : c.Course (.string text) (.root (.scalar ⟨false, [name]⟩ .string) none)
      (c.checkedViolations (.string text) (.root (.scalar ⟨false, [name]⟩ .string) none)) :=
    .checked rfl rfl rfl rfl
  have hfound : c.checkedViolations (.string text)
      (.root (.scalar ⟨false, [name]⟩ .string) none) =
        ((Constraint.enumeration members).breach? c.gates .root (.string text)).toList := by
    rw [checkedViolations, hlent, List.flatMap_singleton, ruleViolations]
    -- Nothing lies inside a text.
    change (((Constraint.enumeration members).breach? c.gates .root (.string text)).map
      fun violation => violation.nativeIf false).toList ++ [] = _
    cases (Constraint.enumeration members).breach? c.gates .root (.string text) <;> rfl
  rw [hchecked.walk_eq, hfound, Constraint.breach?, identityText]
  split
  next => rfl
  next => rfl

end Context

section

variable {types : Universe} {options : Options} {name : String} {type : TypeDef}
variable {constants : List ConstantDef}

/-- The texts that are values of an enumeration: a text is accepted if one of the constants with
this value is not excluded under the gates. Otherwise the only violation lists the values of all
constants that are not excluded, in the order in which they are declared. -/
theorem validate_enumeration (htype : types.get? name = some type)
    (hbody : type.body = .alias (.scalar .string) constants)
    (haccepted : (compile types options).schema.contains name = true)
    (htags : ((Compiler.compiledTags ⟨types, options⟩ .type type.tags).filter Tag.isKnown).map
      Tag.name = ["enum"]) (gates : GateView) (text : String) :
    ∃ found, validate (compile types options).schema name gates (.string text) none = .ok found ∧
      (found = [] ↔ ∃ constant ∈ constants, constant.value = text ∧
        Compiler.isExcluded ⟨types, options⟩ gates constant = false) ∧
      (found ≠ [] → ∃ violation, found = [violation] ∧ violation.path = .root ∧
        violation.kind = .notSupported ∧ violation.badValue = some (.string text) ∧
        violation.detail = "supported values: " ++ String.intercalate ", "
          ((constants.filter fun constant =>
              !Compiler.isExcluded ⟨types, options⟩ gates constant).map
            fun constant => Text.quoted constant.value)) := by
  obtain ⟨compiled, hcompiled, hvalidate⟩ := Schema.validate_of_contains haccepted
  have hdefinition := (schema_get?_eq_some_iff htype).mp hcompiled
  have hname : type.name = name := Catalog.name_of_findEntry htype
  obtain ⟨-, hrules, ⟨fields, -, hstruct, -⟩ | ⟨_, _, plan, -, hplanned, hplan⟩⟩ :=
    Compiler.definition_spec hdefinition
  · cases hbody.symm.trans hstruct
  · rw [hname] at hplan
    obtain ⟨members, tag, hmembers, hleaf⟩ :=
      Compiler.typeRules_enumeration (hname ▸ htype) hbody htags hrules
    have hroot : compiled.plan = .scalar ⟨false, [name]⟩ .string := by
      rw [CompiledType.plan, hplanned]
      exact Compiler.plan_alias_string htype hbody hplan
    refine ⟨_, hvalidate gates (.string text) none, ?_⟩
    rw [CompiledType.violations, hroot, Context.walk_enumeration hcompiled hleaf,
      Compiler.allowedValues_of_mapM hmembers]
    have hallowed : ((constants.filter fun constant =>
          !Compiler.isExcluded ⟨types, options⟩ gates constant).map
        ConstantDef.value).contains text = true ↔ ∃ constant ∈ constants, constant.value = text ∧
          Compiler.isExcluded ⟨types, options⟩ gates constant = false := by
      simp only [List.contains_iff_mem, List.mem_map, List.mem_filter, Bool.not_eq_true', and_assoc]
      exact exists_congr fun constant => and_congr_right fun _ => and_comm
    split
    next hmember => exact ⟨iff_of_true rfl (hallowed.mp hmember), fun hsome => absurd rfl hsome⟩
    next hmember =>
      refine ⟨iff_of_false (List.cons_ne_nil _ _) fun hsome => hmember (hallowed.mpr hsome), ?_⟩
      intro _
      refine ⟨_, rfl, rfl, rfl, rfl, ?_⟩
      rw [Violation.notSupported, List.map_map]
      rfl

end

/-- The phases of a job. The second goes with one gate, the third with both together. -/
def phases : List ConstantDef :=
  [⟨"Started", "started", []⟩,
    ⟨"Paused", "paused", ["+k8s:ifDisabled(Pausing)=+k8s:enumExclude"]⟩,
    ⟨"Failed", "failed", ["+k8s:ifEnabled(Pausing)=+k8s:ifEnabled(Retrying)=+k8s:enumExclude"]⟩]

def phaseType : TypeDef := ⟨"Phase", ["+k8s:enum"], .alias (.scalar .string) phases⟩

def phaseTypes : Universe := Catalog.ofList [phaseType]

/-- Jobs cannot be paused when only the other gate is enabled. -/
theorem validate_enumeration_phases :
    phaseTypes.get? "Phase" = some phaseType ∧
      (compile phaseTypes .default).schema.contains "Phase" = true ∧
      ((Compiler.compiledTags ⟨phaseTypes, .default⟩ .type phaseType.tags).filter Tag.isKnown).map
        Tag.name = ["enum"] ∧
      ∃ violation, validate (compile phaseTypes .default).schema "Phase"
          (fun gate => gate == "Retrying") (.string "paused") none = .ok [violation] ∧
        violation.path = .root ∧ violation.kind = .notSupported ∧
        violation.badValue = some (.string "paused") ∧
        violation.detail = "supported values: \"started\", \"failed\"" := by
  have hget : phaseTypes.get? "Phase" = some phaseType := rfl
  have haccepted : (compile phaseTypes .default).schema.contains "Phase" = true := by
    decide +kernel
  have htags : ((Compiler.compiledTags ⟨phaseTypes, .default⟩ .type phaseType.tags).filter
      Tag.isKnown).map Tag.name = ["enum"] := by
    decide +kernel
  obtain ⟨found, hvalidate, hempty, hfound⟩ := validate_enumeration hget rfl haccepted htags
    (fun gate => gate == "Retrying") "paused"
  have hsome : found ≠ [] := by
    rw [Ne, hempty]
    decide +kernel
  obtain ⟨violation, rfl, hpath, hkind, hvalue, hdetail⟩ := hfound hsome
  refine ⟨hget, haccepted, htags, violation, hvalidate, hpath, hkind, hvalue, hdetail.trans ?_⟩
  decide +kernel

end TaggedSchema
