import TaggedSchema.Proofs.Rule.Pruning
import TaggedSchema.Proofs.Rule.Signatures
import TaggedSchema.Proofs.Universe.Pruning

/-!
# What standing tags are built into

A tag all of whose conditions hold is built into what is left of its rule, and of the rule of any
other tag nothing is left. So the rules of a place, built without the tags that do not stand, are
what is left of its rules.
-/

namespace TaggedSchema

/-- The builder over the definitions without the tags that do not stand. -/
def Compiler.pruned (c : Compiler) (gates : GateView) : Compiler :=
  { c with types := c.types.pruned gates }

namespace Compiler

variable {c : Compiler} {gates : GateView} {tag : Tag} {scope : Scope} {target : TypeRef}
variable {around : Surroundings}

/-! ## Targets -/

theorem alike_pruned (c : Compiler) (gates : GateView) : c.Alike (c.pruned gates) where
  options := rfl
  types := c.types.sameSignatures_pruned gates

theorem resolve_pruned (target : TypeRef) : (c.pruned gates).resolve target = c.resolve target :=
  (c.alike_pruned gates).resolve target

theorem struct_pruned : (c.pruned gates).struct tag target =
    (c.struct tag target).map (TypeDef.pruned gates) := by
  have hget (name : String) : (c.pruned gates).types.get? name =
      (c.types.get? name).map (TypeDef.pruned gates) := c.types.get?_pruned gates name
  rw [struct, struct, resolve_pruned]
  cases c.resolve target with
  | error error => rfl
  | ok resolved =>
    simp only [bind, Except.bind, hget]
    cases resolved.shape.structName? with
    | none => rfl
    | some name =>
      dsimp only
      cases c.types.get? name <;> rfl

theorem elementStruct_pruned : (c.pruned gates).elementStruct tag target =
    (c.elementStruct tag target).map (TypeDef.pruned gates) := by
  rw [elementStruct, elementStruct, resolve_pruned]
  cases c.resolve target with
  | error error => rfl
  | ok resolved =>
    simp only [bind, Except.bind]
    cases resolved.shape with
    | slice element =>
      simp only [struct_pruned]
      cases c.struct tag element <;> rfl
    | _ => rfl

theorem fieldOf_pruned (type : TypeDef) (jsonName : String) :
    fieldOf tag (type.pruned gates) jsonName =
      (fieldOf tag type jsonName).map (FieldDef.pruned gates) := by
  rw [fieldOf, fieldOf, type.field?_pruned]
  cases type.field? jsonName <;> rfl

theorem selectorKey_pruned (type : TypeDef) :
    selectorKey tag (type.pruned gates) = selectorKey tag type :=
  selectorKey_untagged type.untagged_pruned

/-! ## Enumerations -/

/-- What is gathered by steps of which some are left out, and the others taken with less. -/
theorem mapM_filter {ε α β : Type} {step step' : α → Except ε (Option β)} {keep : α → Bool}
    {left : β → Option β} {inputs : List α} {outputs : List (Option β)}
    (h : inputs.mapM step = .ok outputs)
    (hstep : ∀ input output, step input = .ok output →
      (keep input = true → step' input = .ok (output.bind left)) ∧
        (keep input = false → output.bind left = none)) :
    ∃ outputs', (inputs.filter keep).mapM step' = .ok outputs' ∧
      outputs'.filterMap id = (outputs.filterMap id).filterMap left := by
  rw [mapM_succeeds_iff] at h
  induction h with
  | nil => exact ⟨[], rfl, rfl⟩
  | @cons input output inputs outputs hinput hrest ih =>
    obtain ⟨outputs', houtputs', hsame⟩ := ih
    obtain ⟨hkept, hdropped⟩ := hstep input output hinput
    have hcons : ((output :: outputs).filterMap id).filterMap left =
        (output.bind left).toList ++ (outputs.filterMap id).filterMap left := by
      cases output with
      | none => rfl
      | some found => cases hleft : left found <;> simp [hleft]
    rw [hcons, ← hsame]
    cases hkeep : keep input with
    | true =>
      refine ⟨output.bind left :: outputs', ?_, ?_⟩
      · rw [List.filter_cons_of_pos hkeep, mapM_succeeds_iff]
        exact .cons (hkept hkeep) (mapM_succeeds_iff.mp houtputs')
      · cases output.bind left <;> rfl
    | false =>
      refine ⟨outputs', ?_, ?_⟩
      · rw [List.filter_cons_of_neg (by rw [hkeep]; exact Bool.false_ne_true)]
        exact houtputs'
      · rw [hdropped hkeep]
        rfl

/-- It does not matter whether tags that do not stand are left out before or after those that are
not compiled. -/
theorem filter_stands (c : Compiler) (gates : GateView) (tags : List Tag) :
    (tags.filter (Tag.stands gates)).filter c.compiles =
      (tags.filter c.compiles).filter (Tag.stands gates) := by
  rw [List.filter_filter, List.filter_filter]
  apply List.filter_congr
  intro tag _
  exact Bool.and_comm _ _

theorem gateName_of_gate {gate : String} (h : c.gate tag = .ok gate) : tag.gateName = .ok gate := by
  rw [Compiler.gate, bind_succeeds_iff] at h
  obtain ⟨named, hnamed, h⟩ := h
  split at h
  next =>
    split at h
    next =>
      cases h
      exact hnamed
    next => cases h
  next =>
    cases h
    exact hnamed

/-- A condition holds as a tag if it holds as a condition, and no other tag fails to hold. -/
theorem holds_of_conditional {polarity : Bool} {gate : String}
    (hname : Directive.ofName? tag.name = some (.conditional polarity))
    (hgate : c.gate tag = .ok gate) :
    tag.holds gates = (condition polarity gate).holds gates := by
  rw [Tag.holds, hname, gateName_of_gate hgate]

theorem holds_of_not_conditional
    (hname : ∀ polarity, Directive.ofName? tag.name ≠ some (.conditional polarity)) :
    tag.holds gates = true := by
  rw [Tag.holds]
  split
  next polarity _ hdirective _ => exact absurd hdirective (hname polarity)
  next => rfl

theorem marker_ne_ok {head : Tag.Head} {inner : Tag} {marked constraint : Constraint} :
    (Tag.composed head inner).marker marked ≠ .ok constraint := by
  intro h
  rw [Tag.marker] at h
  split at h
  next => cases h
  next => cases h

/-- An exclusion is active if its tag stands. -/
theorem Excludes.isActive {exclusion : Exclusion} (h : c.Excludes tag exclusion) :
    exclusion.isActive gates = tag.stands gates := by
  induction h with
  | @always tag constraint hname hmarker =>
    have hholds : tag.holds gates = true :=
      holds_of_not_conditional (by rw [hname]; nofun)
    cases tag with
    | composed head inner => exact absurd hmarker marker_ne_ok
    | _ => exact hholds.symm
  | @guarded head nested polarity gate inner hname hgate hinner ih =>
    have hname' : Directive.ofName? (Tag.composed head nested).name =
        some (.conditional polarity) := hname
    rw [Tag.stands, ← ih, holds_of_conditional hname' hgate]
    rfl

theorem enumMember_pruned {constant : ConstantDef} {member : EnumMember}
    (h : c.enumMember constant = .ok member) :
    (c.pruned gates).enumMember (constant.pruned gates) = .ok (member.pruned gates) := by
  simp only [enumMember, bind_succeeds_iff, mapError_succeeds_iff, pure_succeeds_iff] at h ⊢
  obtain ⟨tags, htags, exclusions, hexclusions, rfl⟩ := h
  have hstep (tag : Tag) (built : Option Exclusion) (hbuilt : c.exclusion tag = .ok built) :
      (tag.stands gates = true → (c.pruned gates).exclusion tag =
          .ok (built.bind (Option.guard (Exclusion.isActive gates)))) ∧
        (tag.stands gates = false →
          built.bind (Option.guard (Exclusion.isActive gates)) = none) := by
    -- The tags of a constant are built without a look at the definitions.
    have hsame : (c.pruned gates).exclusion tag = .ok built :=
      (congrFun (exclusion_types _ _ _) tag).trans hbuilt
    cases built with
    | none => exact ⟨fun _ => hsame, fun _ => rfl⟩
    | some exclusion =>
      have hactive : exclusion.isActive gates = tag.stands gates :=
        (exclusion_excludes hbuilt).isActive
      rw [Option.bind_some, Option.guard, hactive]
      constructor
      · intro hstands
        rw [if_pos hstands]
        exact hsame
      · intro hfails
        rw [hfails]
        rfl
  obtain ⟨exclusions', hexclusions', hleft⟩ := mapM_filter hexclusions hstep
  rw [← filter_stands] at hexclusions'
  refine ⟨_, Tag.parseLines_standingLines htags gates, exclusions', hexclusions', ?_⟩
  rw [hleft, EnumMember.pruned, List.filterMap_eq_filter]
  rfl

theorem enumeration_pruned {constraint : Constraint}
    (h : c.enumeration tag target = .ok constraint) :
    (c.pruned gates).enumeration tag target = .ok (constraint.pruned gates) := by
  have hpayload : (tag.hasPayload || !tag.arguments.isEmpty) = false := by
    rw [Compiler.enumeration] at h
    split at h
    next => cases h
    next hpayload => exact eq_false_of_ne_true hpayload
  obtain ⟨name, type, underlying, constants, resolved, members, rfl, htype, hbody, hresolve,
    hstring, hmembers, rfl⟩ := enumeration_eq_ok h
  have htype' : (c.pruned gates).types.get? name = some (type.pruned gates) := by
    rw [Compiler.pruned, Universe.get?_pruned, htype, Option.map_some]
  have hbody' : (type.pruned gates).body =
      .alias underlying (constants.map (ConstantDef.pruned gates)) := by
    rw [TypeDef.pruned, hbody]
    rfl
  have hmembers' : (constants.map (ConstantDef.pruned gates)).mapM (c.pruned gates).enumMember =
      .ok (members.map (EnumMember.pruned gates)) := by
    rw [mapM_succeeds_iff, List.forall₂_map_left_iff, List.forall₂_map_right_iff]
    exact (mapM_succeeds_iff.mp hmembers).imp fun _ _ => enumMember_pruned
  simp only [Compiler.enumeration, hpayload, Bool.false_eq_true, if_false, htype', hbody']
  rw [resolve_pruned, hresolve]
  simp only [bind, Except.bind, hstring, if_true, hmembers']
  rfl

/-! ## Constraints -/

/-- Only an enumeration depends on the tags of a definition. -/
theorem constraint_eq_pruned {name : SimpleTag} (hname : name ≠ .enum) :
    (c.pruned gates).constraint tag target around name = c.constraint tag target around name :=
  (c.alike_pruned gates).constraint tag around fun henum => absurd henum hname

theorem constraint_pruned {name : SimpleTag} {constraint : Constraint}
    (h : c.constraint tag target around name = .ok constraint) :
    (c.pruned gates).constraint tag target around name = .ok (constraint.pruned gates) := by
  by_cases hname : name = .enum
  · subst hname
    exact enumeration_pruned h
  · rw [constraint_eq_pruned hname, h]
    rw [← constraint_tag h] at hname
    rw [Constraint.pruned_of_tag hname]

/-- A tag that is a rule by itself holds no tag. -/
theorem inner?_of_constraint {name : SimpleTag} {constraint : Constraint}
    (h : c.constraint tag target around name = .ok constraint) : tag.inner? = none := by
  cases tag with
  | bare | valued => rfl
  | composed head inner =>
    have hword (word : String) : (Tag.composed head inner).wordValue ≠ .ok word := nofun
    have hinteger (value : Int) : (Tag.composed head inner).integerValue ≠ .ok value := nofun
    have hunion (allowed : List String) :
        (Tag.composed head inner).checkUnionArguments allowed ≠ .ok () := by
      rw [Tag.checkUnionArguments]
      split <;> nofun
    cases name with
    | required | optional | forbidden | immutable | opaqueType | declarativeValidationNative
    | enumExclude => exact absurd h marker_ne_ok
    | update =>
      simp only [Compiler.constraint, Tag.choice, bind_succeeds_iff] at h
      obtain ⟨_, ⟨word, hfound, -⟩, -⟩ := h
      exact absurd hfound (hword word)
    | minimum =>
      simp only [Compiler.constraint, bind_succeeds_iff] at h
      obtain ⟨-, -, value, hfound, -⟩ := h
      exact absurd hfound (hinteger value)
    | maxLength | maxItems | maxProperties =>
      simp only [Compiler.constraint, Tag.limitValue, bind_succeeds_iff] at h
      obtain ⟨-, -, _, ⟨value, hfound, -⟩, -⟩ := h
      exact absurd hfound (hinteger value)
    | format =>
      simp only [Compiler.constraint, Tag.choice, bind_succeeds_iff] at h
      obtain ⟨-, -, _, ⟨word, hfound, -⟩, -⟩ := h
      exact absurd hfound (hword word)
    | listType | unique =>
      simp only [Compiler.constraint, Tag.choice, bind_succeeds_iff] at h
      obtain ⟨_, ⟨word, hfound, -⟩, -⟩ := h
      exact absurd hfound (hword word)
    | listMapKey =>
      simp only [Compiler.constraint, bind_succeeds_iff] at h
      obtain ⟨-, -, word, hfound, -⟩ := h
      exact absurd hfound (hword word)
    | customUnique =>
      simp only [Compiler.constraint, bind_succeeds_iff] at h
      obtain ⟨-, -, h⟩ := h
      exact absurd h marker_ne_ok
    | unionMember | zeroOrOneOfMember | unionDiscriminator =>
      simp only [Compiler.constraint, bind_succeeds_iff] at h
      obtain ⟨⟨⟩, hfound, -⟩ := h
      exact absurd hfound (hunion _)
    | neq =>
      simp only [Compiler.constraint, Compiler.differs, bind_succeeds_iff] at h
      obtain ⟨resolved, -, h⟩ := h
      split at h <;> cases h
    | enum =>
      simp only [Compiler.constraint, Compiler.enumeration, Tag.hasPayload, Bool.true_or,
        if_true] at h
      cases h

/-! ## Tags -/

/-- What the second builder builds is left of what the first one does, which is nothing unless
`stands`. -/
def BuildsLeft (gates : GateView) (stands : Bool) (build build' : Builder) : Prop :=
  ∀ scope target around built, build scope target around = .ok built →
    (stands = true →
        build' scope target around = .ok (built.bind (Rule.prune? gates))) ∧
      (stands = false → built.bind (Rule.prune? gates) = none)

section

variable {stands : Bool} {nested nested' : Builder} {built : Option Rule}

/-- Of a rule around another one as much is left as of the other one. -/
theorem wrapped_left (hnested : BuildsLeft gates stands nested nested') {wrap : Rule → Rule}
    (hwrap : ∀ rule, (wrap rule).prune? gates = (rule.prune? gates).map wrap)
    (h : c.wrapped tag nested scope target around wrap = .ok built) :
    (stands = true → (c.pruned gates).wrapped tag nested' scope target around wrap =
        .ok (built.bind (Rule.prune? gates))) ∧
      (stands = false → built.bind (Rule.prune? gates) = none) := by
  simp only [wrapped, bind_succeeds_iff, pure_succeeds_iff] at h ⊢
  obtain ⟨tag, htag, inner, hinner, rfl⟩ := h
  obtain ⟨hstands, hfails⟩ := hnested scope target around inner hinner
  have hleft : (inner.map wrap).bind (Rule.prune? gates) =
      (inner.bind (Rule.prune? gates)).map wrap := by
    cases inner with
    | none => rfl
    | some rule => exact hwrap rule
  rw [hleft]
  constructor
  · intro his
    exact ⟨tag, htag, _, hstands his, rfl⟩
  · intro hnot
    rw [hfails hnot]
    rfl

theorem directive_left (hnested : BuildsLeft gates stands nested nested')
    (hinner : tag.inner? = none → stands = true) {directive : Directive}
    (hname : Directive.ofName? tag.name = some directive)
    (h : c.directive tag nested scope target around directive = .ok built) :
    ((tag.holds gates && stands) = true →
        (c.pruned gates).directive tag nested' scope target around directive =
          .ok (built.bind (Rule.prune? gates))) ∧
      ((tag.holds gates && stands) = false → built.bind (Rule.prune? gates) = none) := by
  have hplace (place : Place) (rule : Rule) : (Rule.within place rule tag.raw).prune? gates =
      (rule.prune? gates).map (.within place · tag.raw) := rfl
  have hholds (hdirective : ∀ polarity, directive ≠ .conditional polarity) :
      tag.holds gates = true := by
    apply holds_of_not_conditional
    intro polarity hconditional
    rw [hname] at hconditional
    exact hdirective polarity (Option.some.inj hconditional)
  cases directive with
  | simple name =>
    rw [Compiler.directive, bind_succeeds_iff] at h
    obtain ⟨constraint, hbuilt, h⟩ := h
    cases h
    rw [hholds (by simp), hinner (inner?_of_constraint hbuilt)]
    refine ⟨fun _ => ?_, by simp⟩
    rw [Compiler.directive, constraint_pruned hbuilt]
    rfl
  | eachVal =>
    rw [hholds (by simp), Bool.true_and]
    rw [Compiler.directive, resolve_pruned]
    rw [Compiler.directive, bind_succeeds_iff] at h
    obtain ⟨resolved, hresolve, h⟩ := h
    rw [hresolve]
    simp only [bind, Except.bind]
    split at h
    next element hshape => exact wrapped_left hnested (hplace .eachVal) h
    next key value hshape => exact wrapped_left hnested (hplace .eachVal) h
    next => cases h
  | eachKey =>
    rw [hholds (by simp), Bool.true_and]
    rw [Compiler.directive, resolve_pruned]
    rw [Compiler.directive, bind_succeeds_iff] at h
    obtain ⟨resolved, hresolve, h⟩ := h
    rw [hresolve]
    simp only [bind, Except.bind]
    split at h
    next key value hshape => exact wrapped_left hnested (hplace .eachKey) h
    next => cases h
  | subfield =>
    rw [hholds (by simp), Bool.true_and]
    rw [Compiler.directive, struct_pruned]
    rw [Compiler.directive, bind_succeeds_iff] at h
    obtain ⟨type, hstruct, h⟩ := h
    rw [hstruct]
    simp only [bind, Except.bind, Except.map]
    split at h
    next => cases h
    next jsonName _ =>
      rw [bind_succeeds_iff] at h
      obtain ⟨field, hfield, h⟩ := h
      rw [fieldOf_pruned, hfield]
      exact wrapped_left hnested (hplace (.subfield jsonName)) h
  | item =>
    rw [hholds (by simp), Bool.true_and]
    rw [Compiler.directive, elementStruct_pruned, (c.alike_pruned gates).element]
    simp only [Compiler.directive, bind_succeeds_iff] at h
    obtain ⟨type, hstruct, element, helement, h⟩ := h
    rw [hstruct, helement]
    simp only [bind, Except.bind, Except.map, selectorKey_pruned]
    split at h
    next => cases h
    next harguments =>
      rw [bind_succeeds_iff] at h
      obtain ⟨keys, hkeys, h⟩ := h
      rw [if_neg harguments, hkeys]
      exact wrapped_left hnested (hplace (.item ⟨keys⟩)) h
  | conditional polarity =>
    rw [Compiler.directive, bind_succeeds_iff] at h
    obtain ⟨gate, hgate, h⟩ := h
    have hgate' : (c.pruned gates).gate tag = .ok gate := hgate
    rw [Compiler.directive, hgate', holds_of_conditional hname hgate]
    simp only [bind, Except.bind]
    cases hcondition : (condition polarity gate).holds gates with
    | true =>
      refine wrapped_left hnested (fun rule => ?_) h
      exact if_pos hcondition
    | false =>
      -- Nothing is left of the rule, whatever the tag inside is built into.
      refine ⟨by simp, fun _ => ?_⟩
      obtain ⟨inner, -, rfl⟩ := wrapped_eq_ok h
      cases inner with
      | none => rfl
      | some rule =>
        apply if_neg
        rw [hcondition]
        exact Bool.false_ne_true

theorem step_left (hnested : BuildsLeft gates stands nested nested')
    (hinner : tag.inner? = none → stands = true) :
    BuildsLeft gates (tag.holds gates && stands) (c.step tag nested)
      ((c.pruned gates).step tag nested') := by
  intro scope target around built h
  rw [step] at h ⊢
  cases hname : Directive.ofName? tag.name with
  | none =>
    simp only [hname] at h ⊢
    -- No rule is built from an unknown tag, with or without others.
    have hnothing : built = none := by
      rw [unknown] at h
      split at h <;> cases h
      rfl
    subst hnothing
    exact ⟨fun _ => h, fun _ => rfl⟩
  | some directive =>
    simp only [hname] at h ⊢
    split at h
    next => cases h
    next hscope =>
      split at h
      next => cases h
      next hsettled =>
        rw [if_neg hscope, if_neg hsettled]
        exact directive_left hnested hinner hname h

end

/-- The induction is on the nesting of tags. -/
theorem build_left (gates : GateView) (tag : Tag) :
    BuildsLeft gates (tag.stands gates) (c.build tag) ((c.pruned gates).build tag) := by
  have hnothing : BuildsLeft gates true (fun _ _ _ => .ok none) fun _ _ _ => .ok none := by
    intro scope target around built h
    cases h
    exact ⟨fun _ => rfl, fun _ => rfl⟩
  induction tag with
  | bare head =>
    rw [← Bool.and_true (Tag.stands gates _)]
    exact step_left hnothing fun _ => rfl
  | valued head value =>
    rw [← Bool.and_true (Tag.stands gates _)]
    exact step_left hnothing fun _ => rfl
  | composed head inner ih => exact step_left ih nofun

/-! ## The rules of one place -/

theorem firstRepeated_prunedRules (seen : List SimpleTag) (rules : List Rule) :
    firstRepeated seen (prunedRules gates rules) = firstRepeated seen rules := by
  induction rules generalizing seen with
  | nil => rfl
  | cons rule rules ih =>
    rw [prunedRules, List.filterMap_cons]
    cases rule with
    | leaf constraint tag =>
      have hpresence : isPresence (constraint.pruned gates) = isPresence constraint :=
        Constraint.pruned_congr (fun _ _ => rfl) constraint
      have htag : (constraint.pruned gates).tag = constraint.tag :=
        Constraint.pruned_congr (fun _ _ => rfl) constraint
      simp only [Rule.prune?, firstRepeated, hpresence, htag]
      split
      next => exact ih seen
      next =>
        split
        next => rfl
        next => exact ih _
    | within place inner tag =>
      rw [Rule.prune?]
      cases inner.prune? gates <;> exact ih seen
    | guarded condition inner tag =>
      rw [Rule.prune?]
      cases condition.holds gates with
      | true => cases inner.prune? gates <;> exact ih seen
      | false => exact ih seen

theorem check_prunedRules {rules : List Rule} (h : check rules = .ok ()) :
    check (prunedRules gates rules) = .ok () := by
  rw [check_eq_ok_iff] at h ⊢
  obtain ⟨honce, hpresence, hstable⟩ := h
  rw [firstRepeated_prunedRules, hasConstraint_prunedRules fun _ _ => rfl,
    hasConstraint_prunedRules fun _ _ => rfl, hasConstraint_prunedRules fun _ _ => rfl]
  refine ⟨honce, hpresence, ?_⟩
  -- A part that is left is as stable as one that was there.
  intro hnative left hleft part hpart
  obtain ⟨rule, hrule, hleft⟩ := List.mem_filterMap.mp hleft
  obtain ⟨given, hgiven, hsame⟩ := Rule.all_prune? hleft hpart
  rw [← hsame]
  exact hstable hnative rule hrule given hgiven

theorem rules_pruned {tags : List Tag} {rules : List Rule}
    (h : c.rules tags scope target around = .ok rules) :
    (c.pruned gates).rules (tags.filter (Tag.stands gates)) scope target around =
      .ok (prunedRules gates rules) := by
  simp only [Compiler.rules, bind_succeeds_iff, pure_succeeds_iff] at h ⊢
  obtain ⟨built, hbuilt, ⟨⟩, hcheck, rfl⟩ := h
  obtain ⟨left, hleft, hsame⟩ := mapM_filter hbuilt fun tag built hbuilt =>
    build_left gates tag scope target around built hbuilt
  rw [← filter_stands] at hleft
  refine ⟨left, hleft, (), ?_, hsame⟩
  rw [hsame]
  exact check_prunedRules hcheck

theorem fieldRules_pruned {field : FieldDef} {rules : List Rule}
    (h : c.fieldRules field = .ok rules) :
    (c.pruned gates).fieldRules (field.pruned gates) = .ok (prunedRules gates rules) := by
  simp only [fieldRules, bind_succeeds_iff, mapError_succeeds_iff] at h ⊢
  obtain ⟨tags, htags, h⟩ := h
  exact ⟨_, Tag.parseLines_standingLines htags gates, rules_pruned h⟩

theorem typeRules_pruned {type : TypeDef} {rules : List Rule} (h : c.typeRules type = .ok rules) :
    (c.pruned gates).typeRules (type.pruned gates) = .ok (prunedRules gates rules) := by
  simp only [typeRules, bind_succeeds_iff, mapError_succeeds_iff] at h ⊢
  obtain ⟨tags, htags, h⟩ := h
  exact ⟨_, Tag.parseLines_standingLines htags gates, rules_pruned h⟩

end Compiler

end TaggedSchema
