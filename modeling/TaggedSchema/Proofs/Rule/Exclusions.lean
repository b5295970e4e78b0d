import TaggedSchema.Proofs.Rule.Standing

/-!
# What is taken out of an enumeration

A constant is taken out by a tag of it that is the marker of an exclusion behind any number of
conditions, all of which hold. This is read off the tags as they are written; what the exclusions
that are built from them take out is the same.
-/

namespace TaggedSchema

theorem Directive.name_of_ofName? {name : String} {directive : Directive}
    (h : Directive.ofName? name = some directive) : directive.name = name :=
  beq_iff_eq.mp (List.find?_some h :)

namespace Tag

/-- Whether the tag is the marker of an exclusion, behind any number of conditions. -/
def isExclusion : Tag → Bool
  | composed head inner =>
    (head.name == "ifEnabled" || head.name == "ifDisabled") && inner.isExclusion
  | tag => tag.name == "enumExclude"

/-- Whether the tag takes out its constant: it is an exclusion, and all conditions in it hold. -/
def excludes (gates : GateView) (tag : Tag) : Bool :=
  tag.isExclusion && tag.stands gates

/-- Whether the names of the tag and of all tags inside it are known. -/
def isKnown : Tag → Bool
  | composed head inner => (Directive.ofName? head.name).isSome && inner.isKnown
  | tag => (Directive.ofName? tag.name).isSome

/-- The name of the outermost tag decides whether it can be an exclusion. -/
theorem isExclusion_eq_false {tag : Tag}
    (h : ∀ directive, Directive.ofName? tag.name = some directive →
      directive ≠ .simple .enumExclude ∧ ∀ polarity, directive ≠ .conditional polarity) :
    tag.isExclusion = false := by
  have hname {name : String} {directive : Directive} (hname : tag.name = name)
      (hdirective : Directive.ofName? name = some directive)
      (hnot : directive = .simple .enumExclude ∨ ∃ polarity, directive = .conditional polarity) :
      False := by
    obtain ⟨hmarker, hcondition⟩ := h directive (hname ▸ hdirective)
    rcases hnot with rfl | ⟨polarity, rfl⟩
    · exact hmarker rfl
    · exact hcondition polarity rfl
  cases tag with
  | bare | valued =>
    rw [isExclusion]
    · exact beq_eq_false_iff_ne.mpr fun heq => hname heq rfl (.inl rfl)
    · nofun
  | composed head inner =>
    rw [isExclusion, Bool.and_eq_false_iff, Bool.or_eq_false_iff]
    exact .inl ⟨beq_eq_false_iff_ne.mpr fun heq => hname heq rfl (.inr ⟨_, rfl⟩),
      beq_eq_false_iff_ne.mpr fun heq => hname heq rfl (.inr ⟨_, rfl⟩)⟩

end Tag

namespace Compiler

variable {c : Compiler} {gates : GateView} {tag : Tag} {scope : Scope} {target : TypeRef}
variable {around : Surroundings}

/-- Whether one of the constant's tags that are compiled takes it out. -/
def isExcluded (c : Compiler) (gates : GateView) (constant : ConstantDef) : Bool :=
  (c.compiledTags .constant constant.tags).any (Tag.excludes gates)

/-! ## Exclusions -/

theorem Excludes.isExclusion {exclusion : Exclusion} (h : c.Excludes tag exclusion) :
    tag.isExclusion = true := by
  induction h with
  | @always tag constraint hname hmarker =>
    have hwritten : tag.name = "enumExclude" := (Directive.name_of_ofName? hname).symm
    cases tag with
    | composed head inner => exact absurd hmarker marker_ne_ok
    | bare | valued =>
      rw [Tag.isExclusion, hwritten]
      · exact beq_self_eq_true _
      · nofun
  | @guarded head nested polarity gate inner hname hgate hinner ih =>
    have hwritten : (Directive.conditional polarity).name = head.name :=
      Directive.name_of_ofName? hname
    rw [Tag.isExclusion, ih, Bool.and_true, ← hwritten]
    cases polarity <;> rfl

/-- What is built into no exclusion is no exclusion as it is written either. -/
theorem isExclusion_of_exclusion_none (h : c.exclusion tag = .ok none) :
    tag.isExclusion = false := by
  induction tag with
  | composed head nested ih =>
    simp only [Compiler.exclusion] at h
    split at h
    next hname =>
      apply Tag.isExclusion_eq_false
      intro directive hdirective
      cases hname.symm.trans hdirective
    next =>
      simp only [bind_succeeds_iff, pure_succeeds_iff, reduceCtorEq, and_false,
        exists_false] at h
    next polarity hname =>
      simp only [bind_succeeds_iff] at h
      obtain ⟨gate, -, -, -, inner, hinner, h⟩ := h
      split at h
      next => cases h
      next => rw [Tag.isExclusion, ih hinner, Bool.and_false]
    next => cases h
  | bare head | valued head value =>
    simp only [Compiler.exclusion] at h
    split at h
    next hname =>
      apply Tag.isExclusion_eq_false
      intro directive hdirective
      cases hname.symm.trans hdirective
    next =>
      simp only [bind_succeeds_iff, pure_succeeds_iff, reduceCtorEq, and_false,
        exists_false] at h
    next =>
      rw [bind_succeeds_iff] at h
      obtain ⟨-, -, h⟩ := h
      cases h
    next => cases h

/-- The exclusion that is built from a tag is active if the tag takes out its constant. -/
theorem any_isActive_of_exclusion {built : Option Exclusion} (h : c.exclusion tag = .ok built) :
    built.any (Exclusion.isActive gates) = tag.excludes gates := by
  cases built with
  | none =>
    rw [Tag.excludes, isExclusion_of_exclusion_none h]
    rfl
  | some exclusion =>
    have hexcludes := exclusion_excludes h
    rw [Option.any_some, hexcludes.isActive, Tag.excludes, hexcludes.isExclusion, Bool.true_and]

/-! ## Constants -/

theorem enumMember_value {constant : ConstantDef} {member : EnumMember}
    (h : c.enumMember constant = .ok member) : member.value = constant.value := by
  simp only [enumMember, bind_succeeds_iff, pure_succeeds_iff] at h
  obtain ⟨_, -, _, -, rfl⟩ := h
  rfl

theorem enumMember_isExcluded {constant : ConstantDef} {member : EnumMember}
    (h : c.enumMember constant = .ok member) :
    member.isExcluded gates = c.isExcluded gates constant := by
  simp only [enumMember, bind_succeeds_iff, mapError_succeeds_iff, pure_succeeds_iff] at h
  obtain ⟨tags, htags, exclusions, hexclusions, rfl⟩ := h
  rw [mapM_succeeds_iff] at hexclusions
  rw [isExcluded, compiledTags_of_parseLines htags, EnumMember.isExcluded]
  generalize tags.filter c.compiles = given at hexclusions ⊢
  induction hexclusions with
  | nil => rfl
  | @cons tag built tags exclusions htag hrest ih =>
    rw [List.any_cons, ← ih, ← any_isActive_of_exclusion htag]
    cases built <;> rfl

/-- The values that are allowed are those of the constants that are not taken out. -/
theorem allowedValues_of_mapM {constants : List ConstantDef} {members : List EnumMember}
    (h : constants.mapM c.enumMember = .ok members) :
    allowedValues gates members =
      (constants.filter fun constant => !c.isExcluded gates constant).map ConstantDef.value := by
  rw [mapM_succeeds_iff] at h
  rw [allowedValues]
  induction h with
  | nil => rfl
  | @cons constant member constants members hmember hrest ih =>
    rw [List.filter_cons, List.filter_cons, enumMember_isExcluded hmember]
    split
    next => rw [List.map_cons, List.map_cons, ih, enumMember_value hmember]
    next => exact ih

/-! ## Unknown tags -/

/-- What a tag around another one is built into holds what the other one is built into. -/
theorem directive_composed {head : Tag.Head} {inner : Tag} {nested : Builder}
    {directive : Directive} {built : Option Rule}
    (h : c.directive (.composed head inner) nested scope target around directive = .ok built) :
    ∃ scope' target' around' wrap found, nested scope' target' around' = .ok found ∧
      built = found.map wrap := by
  have hwrapped {scope' : Scope} {target' : TypeRef} {around' : Surroundings}
      {wrap : Rule → Rule}
      (h : c.wrapped (.composed head inner) nested scope' target' around' wrap = .ok built) :
      ∃ scope' target' around' wrap found, nested scope' target' around' = .ok found ∧
        built = found.map wrap := by
    obtain ⟨found, hfound, hbuilt⟩ := wrapped_eq_ok h
    exact ⟨scope', target', around', wrap, found, hfound, hbuilt⟩
  cases directive with
  | simple name =>
    rw [Compiler.directive, bind_succeeds_iff] at h
    obtain ⟨constraint, hconstraint, -⟩ := h
    cases inner?_of_constraint hconstraint
  | eachVal =>
    rw [Compiler.directive, bind_succeeds_iff] at h
    obtain ⟨resolved, -, h⟩ := h
    split at h
    next => exact hwrapped h
    next => exact hwrapped h
    next => cases h
  | eachKey =>
    rw [Compiler.directive, bind_succeeds_iff] at h
    obtain ⟨resolved, -, h⟩ := h
    split at h
    next => exact hwrapped h
    next => cases h
  | subfield =>
    rw [Compiler.directive, bind_succeeds_iff] at h
    obtain ⟨type, -, h⟩ := h
    split at h
    next => cases h
    next =>
      rw [bind_succeeds_iff] at h
      obtain ⟨field, -, h⟩ := h
      exact hwrapped h
  | item =>
    simp only [Compiler.directive, bind_succeeds_iff] at h
    obtain ⟨type, -, element, -, h⟩ := h
    split at h
    next => cases h
    next =>
      rw [bind_succeeds_iff] at h
      obtain ⟨keys, -, h⟩ := h
      exact hwrapped h
  | conditional polarity =>
    rw [Compiler.directive, bind_succeeds_iff] at h
    obtain ⟨gate, -, h⟩ := h
    exact hwrapped h

/-- Of a tag with an unknown name in it, nothing is built. The induction is on the nesting of
tags. -/
theorem build_unknown {built : Option Rule} (hunknown : tag.isKnown = false)
    (h : c.build tag scope target around = .ok built) : built = none := by
  induction tag generalizing scope target around built with
  | bare head | valued head value =>
    rcases step_eq_ok h with ⟨-, hnone⟩ | ⟨directive, hname, -⟩
    · exact hnone
    · rw [Tag.isKnown, hname] at hunknown
      · cases hunknown
      · nofun
  | composed head inner ih =>
    rcases step_eq_ok h with ⟨-, hnone⟩ | ⟨directive, hname, -, -, h⟩
    · exact hnone
    · rw [Tag.isKnown, show Directive.ofName? head.name = some directive from hname,
        Option.isSome_some, Bool.true_and] at hunknown
      obtain ⟨_, _, _, wrap, found, hfound, rfl⟩ := directive_composed h
      rw [ih hunknown hfound]
      rfl

/-- What is built from tags is built from those with known names. -/
theorem BuildsRules.filter_isKnown {tags : List Tag} {rules : List Rule}
    (h : c.BuildsRules tags scope target around rules) :
    c.BuildsRules (tags.filter Tag.isKnown) scope target around rules := by
  obtain ⟨built, hbuilt, rfl⟩ := h
  have hstep (tag : Tag) (output : Option Rule)
      (houtput : c.build tag scope target around = .ok output) :
      (tag.isKnown = true → c.build tag scope target around = .ok (output.bind some)) ∧
        (tag.isKnown = false → output.bind some = none) := by
    rw [Option.bind_fun_some]
    exact ⟨fun _ => houtput, fun hunknown => build_unknown hunknown houtput⟩
  obtain ⟨left, hleft, hsame⟩ := mapM_filter hbuilt hstep
  refine ⟨left, ?_, ?_⟩
  · rw [List.filter_filter] at hleft ⊢
    simpa only [Bool.and_comm] using hleft
  · rw [hsame, List.filterMap_some]

end Compiler

end TaggedSchema
