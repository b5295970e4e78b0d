import TaggedSchema.Proofs.Validation.Retagging

/-!
# Immutable fields

A field that is immutable may neither be set, nor cleared, nor modified. So the three restrictions
on its changes can stand for the one constraint, and only say it in other words.
-/

namespace TaggedSchema

/-! ## Violations in other words -/

/-- The second violation is the first one, except that it may put the reason why a change is
forbidden in other words. -/
def Violation.Rewords (violation violation' : Violation) : Prop :=
  violation' = violation ∨ violation.kind = .forbidden ∧
    violation' = { violation with detail := violation'.detail, origin := violation'.origin }

namespace Violation.Rewords

theorem nativeIf {violation violation' : Violation} (h : violation.Rewords violation')
    (native : Bool) : (violation.nativeIf native).Rewords (violation'.nativeIf native) := by
  rcases h with rfl | ⟨hkind, hsame⟩
  · exact .inl rfl
  · refine .inr ⟨by rw [nativeIf_kind, hkind], ?_⟩
    rw [hsame]
    cases native <;> rfl

theorem composes : Context.Composes (List.Forall₂ Rewords) where
  same _ := List.forall₂_same.mpr fun _ _ => .inl rfl
  append hfound hothers := List.rel_append hfound hothers

end Violation.Rewords

/-! ## The constraint and the restrictions -/

namespace Site

variable (site : Site) (value : Value) (front back : List Constraint)

/-- Of the three restrictions exactly one rejects a change, which an immutable field rejects. -/
theorem rejection?_restrictions :
    Option.Rel Violation.Rewords (site.rejection? value (front ++ [Constraint.immutable] ++ back))
      (site.rejection? value (front ++ Restriction.all.map Constraint.restriction ++ back)) := by
  rw [rejection?, rejection?]
  cases site.old with
  | none => exact .none
  | some old =>
    rw [Option.bind_eq_bind, Option.bind_eq_bind, Option.bind_some, Option.bind_some]
    cases site.plan.change? old value with
    | none => exact .none
    | some change =>
      rw [Option.bind_some, Option.bind_some]
      simp only [List.findSome?_append]
      cases front.findSome? fun constraint => (constraint.rejection? change).map fun detail =>
          Violation.forbidden site.path detail constraint.origin with
      | some violation => exact .some (.inl rfl)
      | none => cases change <;> exact .some (.inr ⟨rfl, rfl⟩)

/-- Neither says anything about a value that is unset, or set. -/
theorem blocked?_restrictions :
    Option.Rel Violation.Rewords (site.blocked? value (front ++ [Constraint.immutable] ++ back))
      (site.blocked? value (front ++ Restriction.all.map Constraint.restriction ++ back)) := by
  have hpresence (isUnset : Bool) :
      (front ++ Restriction.all.map Constraint.restriction ++ back).findSome?
          (Constraint.presence? · site.path isUnset) =
        (front ++ [Constraint.immutable] ++ back).findSome?
          (Constraint.presence? · site.path isUnset) := by
    simp only [List.findSome?_append]
    rfl
  rw [blocked?, blocked?, hpresence]
  rcases optionRel_cases (site.rejection?_restrictions value front back) with
    ⟨hnone, hnone'⟩ | ⟨violation, violation', hsome, hsome', hrewords⟩
  · rw [hnone, hnone', Option.none_or]
    cases (front ++ [Constraint.immutable] ++ back).findSome?
        (Constraint.presence? · site.path (site.plan.isUnset value)) with
    | none => exact .none
    | some violation => exact .some (.inl rfl)
  · rw [hsome, hsome']
    exact .some hrewords

end Site

namespace RuleSwap

variable {s : RuleSwap} {tag noSet noUnset noModify : String}

/-- If the restrictions are swapped in for the constraint, walks differ in words only. -/
theorem compares_restrictions (hswapped : s.swapped = [.leaf .immutable tag])
    (hswapped' : s.swapped' = [.leaf (.restriction .noSet) noSet,
      .leaf (.restriction .noUnset) noUnset, .leaf (.restriction .noModify) noModify]) :
    s.Compares (fun _ _ => True) (List.Forall₂ Violation.Rewords) where
  toComposes := Violation.Rewords.composes
  next _ _ _ _ := trivial
  blocked {value outer} _ := by
    have hrules : (s.front ++ s.swapped ++ s.back).filterMap Rule.constraint? =
        s.front.filterMap Rule.constraint? ++ [Constraint.immutable] ++
          s.back.filterMap Rule.constraint? := by
      rw [hswapped, List.filterMap_append, List.filterMap_append]
      rfl
    have hrules' : (s.front ++ s.swapped' ++ s.back).filterMap Rule.constraint? =
        s.front.filterMap Rule.constraint? ++ Restriction.all.map Constraint.restriction ++
          s.back.filterMap Rule.constraint? := by
      rw [hswapped', List.filterMap_append, List.filterMap_append]
      rfl
    rw [hrules, hrules']
    rcases optionRel_cases ((s.siteIn outer).blocked?_restrictions value _ _) with
      ⟨hnone, hnone'⟩ | ⟨violation, violation', hsome, hsome', hrewords⟩
    · rw [hnone, hnone']
      exact .none
    · rw [hsome, hsome']
      exact .some (.cons (hrewords.nativeIf _) .nil)
  mismatch {value outer} _ _ _ lent := by
    have hsame : (s.siteIn outer).mismatch value
          ((s.front ++ s.swapped' ++ s.back ++ lent).filterMap Rule.constraint?) =
        (s.siteIn outer).mismatch value
          ((s.front ++ s.swapped ++ s.back ++ lent).filterMap Rule.constraint?) := by
      simp only [Site.mismatch, hswapped, hswapped', List.filterMap_append, List.find?_append]
      rfl
    rw [hsame]
    exact .cons (.inl rfl) .nil
  found _ _ _ := by
    rw [hswapped, hswapped']
    exact .nil

end RuleSwap

/-! ## Fields with either -/

namespace Compiler

variable {c : Compiler} {tag : Tag} {scope : Scope} {target : TypeRef} {around : Surroundings}
variable {built : Option Rule}

theorem build_immutable (hname : tag.name = "immutable")
    (h : c.build tag scope target around = .ok built) :
    built = some (.leaf .immutable tag.raw) := by
  have hdirective : Directive.ofName? tag.name = some (.simple .immutable) := by
    rw [hname]
    rfl
  obtain ⟨constraint, hconstraint, rfl⟩ := build_simple hdirective h
  cases constraint <;> cases constraint_tag hconstraint
  rfl

theorem build_restriction (kind : Restriction) (hname : tag.name = "update")
    (hword : tag.value?.bind Literal.text? = some kind.name)
    (h : c.build tag scope target around = .ok built) :
    built = some (.leaf (.restriction kind) tag.raw) := by
  have hdirective : Directive.ofName? tag.name = some (.simple .update) := by
    rw [hname]
    rfl
  have hchoice : tag.choice Restriction.words = .ok kind := by
    simp only [Tag.choice, Tag.wordValue, hword]
    cases kind <;> rfl
  obtain ⟨constraint, hconstraint, rfl⟩ := build_simple hdirective h
  simp only [Compiler.constraint, hchoice] at hconstraint
  cases hconstraint
  rfl

theorem buildsRules_immutable {tags : List Tag} {rules : List Rule}
    (hcompiles : ∀ tag ∈ tags, c.compiles tag = true) (htags : tags.map Tag.name = ["immutable"])
    (h : c.BuildsRules tags scope target around rules) :
    ∃ tag, rules = [.leaf .immutable tag] := by
  obtain ⟨tag, rfl, hname⟩ := List.map_eq_singleton_iff.mp htags
  obtain ⟨_, hbuild, rfl⟩ :=
    (buildsRules_singleton_iff (hcompiles tag (List.mem_singleton_self tag))).mp h
  obtain rfl := build_immutable hname hbuild
  exact ⟨tag.raw, rfl⟩

theorem buildsRules_restrictions {tags : List Tag} {rules : List Rule}
    (hcompiles : ∀ tag ∈ tags, c.compiles tag = true)
    (htags : tags.map (fun tag => (tag.name, tag.value?.bind Literal.text?)) =
      [("update", some "NoSet"), ("update", some "NoUnset"), ("update", some "NoModify")])
    (h : c.BuildsRules tags scope target around rules) :
    ∃ noSet noUnset noModify, rules = [.leaf (.restriction .noSet) noSet,
      .leaf (.restriction .noUnset) noUnset, .leaf (.restriction .noModify) noModify] := by
  obtain ⟨first, _, rfl, hfirst, htags⟩ := List.map_eq_cons_iff.mp htags
  obtain ⟨second, _, rfl, hsecond, htags⟩ := List.map_eq_cons_iff.mp htags
  obtain ⟨third, _, rfl, hthird, htags⟩ := List.map_eq_cons_iff.mp htags
  cases List.map_eq_nil_iff.mp htags
  simp only [List.forall_mem_cons] at hcompiles
  obtain ⟨hcompiles₁, hcompiles₂, hcompiles₃, -⟩ := hcompiles
  simp only [buildsRules_cons_iff, hcompiles₁, hcompiles₂, hcompiles₃, buildsRules_nil_iff] at h
  obtain ⟨_, _, hbuild₁, ⟨_, _, hbuild₂, ⟨_, _, hbuild₃, rfl, rfl⟩, rfl⟩, rfl⟩ := h
  simp only [Prod.mk.injEq] at hfirst hsecond hthird
  obtain rfl := build_restriction .noSet hfirst.1 hfirst.2 hbuild₁
  obtain rfl := build_restriction .noUnset hsecond.1 hsecond.2 hbuild₂
  obtain rfl := build_restriction .noModify hthird.1 hthird.2 hbuild₃
  exact ⟨_, _, _, rfl⟩

end Compiler

/-- A field that is immutable may as well have the three restrictions on changes of set, unset and
modified values. Every object of every type then has the same violations in the same order, and only
the detail and the origin of a forbidden change may be others. -/
theorem validate_immutable {types : Universe} {options : Options} (a : FieldLines types)
    {lines' : List String} (hok : (compile types options).isOk = true)
    (hok' : (compile (a.replaced lines') options).isOk = true)
    (hlines : (Compiler.compiledTags ⟨types, options⟩ .field a.lines).map Tag.name = ["immutable"])
    (hlines' : (Compiler.compiledTags ⟨types, options⟩ .field lines').map
      (fun tag => (tag.name, tag.value?.bind Literal.text?)) =
        [("update", some "NoSet"), ("update", some "NoUnset"), ("update", some "NoModify")])
    {name : String} (hroot : (compile types options).schema.contains name = true)
    (gates : GateView) (new : Value) (old : Option Value) :
    ∃ found found',
      validate (compile types options).schema name gates new old = .ok found ∧
      validate (compile (a.replaced lines') options).schema name gates new old = .ok found' ∧
      List.Forall₂ Violation.Rewords found found' := by
  obtain ⟨rules, rules', hrules, hrules', hswap⟩ := a.exists_ruleSwap hok hok' gates
  obtain ⟨tag, rfl⟩ := Compiler.buildsRules_immutable
    (fun _ => Compiler.compiles_of_mem_compiledTags) hlines hrules.compiledTags
  obtain ⟨noSet, noUnset, noModify, rfl⟩ := Compiler.buildsRules_restrictions
    (fun _ => Compiler.compiles_of_mem_compiledTags) hlines' hrules'.compiledTags
  obtain ⟨s, hschema, hschema', rfl, -, hswapped, hswapped'⟩ := hswap rfl rfl
  obtain ⟨type, htype⟩ := Option.isSome_iff_exists.mp hroot
  rw [← hschema] at htype
  rw [← hschema, ← hschema']
  exact (RuleSwap.compares_restrictions hswapped hswapped').validate htype trivial

/-- A volume keeps its class. -/
def volumeClass : FieldDef :=
  ⟨"Class", none, .scalar .string, ["+k8s:required", "+k8s:immutable", "+k8s:maxLength=4"]⟩

def volumeType : TypeDef := ⟨"Volume", [], .struct [volumeClass]⟩

/-- The volumes of a claim have names. -/
def volumeTypes : Universe := Catalog.ofList
  [⟨"Claim", [], .alias (.map (.scalar .string) (.named "Volume")) []⟩, volumeType]

/-- The line that says that the class may not change. -/
def volumeLines : FieldLines volumeTypes where
  type := volumeType
  position := 0
  field := volumeClass
  front := ["+k8s:required"]
  lines := ["+k8s:immutable"]
  back := ["+k8s:maxLength=4"]
  type_known := by rfl
  field_position := rfl
  field_tags := rfl

/-- The lines that say the same in three restrictions. -/
def restrictionLines : List String :=
  ["+k8s:update=NoSet", "+k8s:update=NoUnset", "+k8s:update=NoModify"]

/-- A claim of one volume of this class. -/
def claimOf (volumeClass : String) : Value :=
  .ofMembers [("data", .ofMembers [("class", .string volumeClass)])]

/-- The class of a volume is modified. -/
theorem validate_immutable_volume :
    (compile volumeTypes .default).isOk = true ∧
      (compile (volumeLines.replaced restrictionLines) .default).isOk = true ∧
      (Compiler.compiledTags ⟨volumeTypes, .default⟩ .field volumeLines.lines).map Tag.name =
        ["immutable"] ∧
      (Compiler.compiledTags ⟨volumeTypes, .default⟩ .field restrictionLines).map
        (fun tag => (tag.name, tag.value?.bind Literal.text?)) =
          [("update", some "NoSet"), ("update", some "NoUnset"), ("update", some "NoModify")] ∧
      (compile volumeTypes .default).schema.contains "Claim" = true ∧
      ∃ found found',
        validate (compile volumeTypes .default).schema "Claim" (fun _ => true) (claimOf "fast")
          (some (claimOf "slow")) = .ok found ∧
        validate (compile (volumeLines.replaced restrictionLines) .default).schema "Claim"
          (fun _ => true) (claimOf "fast") (some (claimOf "slow")) = .ok found' ∧
        List.Forall₂ Violation.Rewords found found' ∧
        found.map Violation.detail = ["field is immutable"] ∧
        found'.map Violation.detail = ["field may not be modified once set"] := by
  have hok : (compile volumeTypes .default).isOk = true := by
    decide +kernel
  have hok' : (compile (volumeLines.replaced restrictionLines) .default).isOk = true := by
    decide +kernel
  have hlines : (Compiler.compiledTags ⟨volumeTypes, .default⟩ .field volumeLines.lines).map
      Tag.name = ["immutable"] := by
    decide +kernel
  have hlines' : (Compiler.compiledTags ⟨volumeTypes, .default⟩ .field restrictionLines).map
      (fun tag => (tag.name, tag.value?.bind Literal.text?)) =
        [("update", some "NoSet"), ("update", some "NoUnset"), ("update", some "NoModify")] := by
    decide +kernel
  have hroot : (compile volumeTypes .default).schema.contains "Claim" = true := by
    decide +kernel
  have hdetails : (validate (compile volumeTypes .default).schema "Claim" (fun _ => true)
      (claimOf "fast") (some (claimOf "slow"))).toOption.map (List.map Violation.detail) =
        some ["field is immutable"] := by
    decide +kernel
  have hdetails' : (validate (compile (volumeLines.replaced restrictionLines) .default).schema
      "Claim" (fun _ => true) (claimOf "fast") (some (claimOf "slow"))).toOption.map
        (List.map Violation.detail) = some ["field may not be modified once set"] := by
    decide +kernel
  obtain ⟨found, found', hvalidate, hvalidate', hrewords⟩ := validate_immutable volumeLines hok hok'
    hlines hlines' hroot (fun _ => true) (claimOf "fast") (some (claimOf "slow"))
  rw [hvalidate] at hdetails
  rw [hvalidate'] at hdetails'
  exact ⟨hok, hok', hlines, hlines', hroot, found, found', hvalidate, hvalidate', hrewords,
    Option.some.inj hdetails, Option.some.inj hdetails'⟩

end TaggedSchema
