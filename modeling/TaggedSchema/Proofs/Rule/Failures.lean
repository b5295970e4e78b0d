import TaggedSchema.Proofs.Results
import TaggedSchema.Rule.Build

/-!
# Why rules are not built

Building the rules of one place ends with a fault of a tag, of the tags together, or of a type that
they name. That a reference contains itself is never found there.
-/

namespace TaggedSchema

/-- The error is found although references are expanded only finitely often. -/
def BuildError.IsFound : BuildError → Prop
  | .endless _ => False
  | _ => True

/-- Only errors that are found occur. -/
abbrev Ends {α : Type} (x : Except BuildError α) : Prop := FailsWith BuildError.IsFound x

namespace Tag

variable {tag : Tag} {around : Surroundings}

theorem marker_ends (constraint : Constraint) : Ends (tag.marker constraint) := by
  rw [marker]
  split
  next => exact .error trivial
  next =>
    split
    next => exact .error trivial
    next => exact .ok _

theorem wordValue_ends : Ends tag.wordValue := by
  rw [wordValue]
  split
  next => exact .ok _
  next => exact .error trivial

theorem choice_ends {α : Type} (words : WordList α) : Ends (tag.choice words) := by
  refine wordValue_ends.bind fun word _ => ?_
  split
  next => exact .ok _
  next => exact .error trivial

theorem integerValue_ends : Ends tag.integerValue := by
  rw [integerValue]
  split
  next => exact .ok _
  next => exact .error trivial

theorem limitValue_ends : Ends tag.limitValue := by
  refine integerValue_ends.bind fun value _ => ?_
  split
  next => exact .error trivial
  next => exact .ok _

theorem textArgument_ends (name : String) : Ends (tag.textArgument name) := by
  rw [textArgument]
  split
  next => exact .ok _
  next =>
    split
    next => exact .ok _
    next => exact .error trivial

theorem checkUnionArguments_ends (allowed : List String) :
    Ends (tag.checkUnionArguments allowed) := by
  rw [checkUnionArguments]
  split
  next => exact .error trivial
  next =>
    split
    next => exact .error trivial
    next => exact .ok _

theorem unionName_ends : Ends tag.unionName :=
  (textArgument_ends "union").bind fun _ _ => .ok _

theorem memberName_ends : Ends (tag.memberName around) := by
  refine (textArgument_ends "memberName").bind fun given _ => ?_
  split
  next => exact .ok _
  next => exact .ok _
  next => exact .error trivial

theorem gateName_ends : Ends tag.gateName := by
  rw [gateName]
  split
  next => exact .ok _
  next => exact .error trivial

end Tag

namespace Compiler

variable {c : Compiler} {tag : Tag} {scope : Scope} {target : TypeRef} {around : Surroundings}

/-! ## Types of targets -/

theorem resolve_ends (target : TypeRef) : Ends (c.resolve target) :=
  .mapError_of_forall fun _ => trivial

theorem expect_ends (expected : Target) (fits : Shape → Bool) :
    Ends (c.expect tag target expected fits) := by
  refine (resolve_ends target).bind fun resolved _ => ?_
  dsimp only
  split
  next => exact .ok _
  next => exact .error trivial

theorem element_ends : Ends (c.element tag target) := by
  refine (resolve_ends target).bind fun resolved _ => ?_
  split
  next => exact .ok _
  next => exact .error trivial

theorem struct_ends : Ends (c.struct tag target) := by
  refine (resolve_ends target).bind fun resolved _ => ?_
  dsimp only
  split
  next => exact .error trivial
  next =>
    split
    next => exact .ok _
    next => exact .error trivial

theorem elementStruct_ends : Ends (c.elementStruct tag target) := by
  refine (resolve_ends target).bind fun resolved _ => ?_
  dsimp only
  split
  next => exact .mapError_of_forall fun _ => trivial
  next => exact .error trivial

theorem fieldOf_ends (type : TypeDef) (jsonName : String) :
    Ends (fieldOf tag type jsonName) := by
  rw [fieldOf]
  split
  next => exact .ok _
  next => exact .error trivial

/-! ## Conditions, namespaces, enumerations -/

theorem gate_ends (tag : Tag) : Ends (c.gate tag) := by
  refine tag.gateName_ends.bind fun gate _ => ?_
  split
  next =>
    split
    next => exact .ok _
    next => exact .error trivial
  next => exact .ok _

theorem inner_ends (tag : Tag) : Ends (c.inner tag) := by
  rw [inner]
  split
  next => exact .error trivial
  next =>
    split
    next =>
      split
      next => exact .ok _
      next => exact .error trivial
    next => exact .ok _

theorem unknown_ends {α : Type} (tag : Tag) : Ends (c.unknown (α := α) tag) := by
  rw [unknown]
  split
  next => exact .ok _
  next => exact .error trivial

theorem exclusion_ends (tag : Tag) : Ends (c.exclusion tag) := by
  induction tag with
  | composed head nested ih =>
    simp only [exclusion]
    split
    next => exact unknown_ends _
    next => exact (Tag.marker_ends _).bind fun _ _ => .ok _
    next =>
      refine (gate_ends _).bind fun gate _ => (inner_ends _).bind fun _ _ =>
        ih.bind fun inner _ => ?_
      cases inner with
      | some inner => exact .ok _
      | none => exact .ok _
    next => exact .error trivial
  | bare head | valued head value =>
    simp only [exclusion]
    split
    next => exact unknown_ends _
    next => exact (Tag.marker_ends _).bind fun _ _ => .ok _
    next => exact (gate_ends _).bind fun _ _ => .error trivial
    next => exact .error trivial

theorem enumMember_ends (constant : ConstantDef) : Ends (c.enumMember constant) := by
  refine .bind (.mapError_of_forall fun _ => trivial) fun tags _ => ?_
  exact (FailsWith.mapM exclusion_ends _).bind fun _ _ => .ok _

theorem enumeration_ends : Ends (c.enumeration tag target) := by
  rw [enumeration]
  split
  next => exact .error trivial
  next =>
    dsimp only
    split
    next name =>
      split
      next => exact .error trivial
      next type _ =>
        split
        next => exact .error trivial
        next underlying constants _ =>
          refine (resolve_ends underlying).bind fun resolved _ => ?_
          split
          next => exact (FailsWith.mapM enumMember_ends _).bind fun _ _ => .ok _
          next => exact .error trivial
    next => exact .error trivial

/-! ## Tags -/

theorem differs_ends : Ends (c.differs tag target) := by
  refine (resolve_ends target).bind fun resolved _ => ?_
  split
  next =>
    split
    next => exact .error trivial
    next =>
      split
      next => exact .ok _
      next => exact .error trivial
  next => exact .error trivial

/-- A list whose elements are structs if they are told apart by keys. -/
theorem listElement_ends {p : Prop} [Decidable p] {α : Type} {next : Except BuildError α}
    (hnext : Ends next) :
    Ends (if p then c.elementStruct tag target >>= fun _ => next
      else c.element tag target >>= fun _ => next) := by
  split
  next => exact elementStruct_ends.bind fun _ _ => hnext
  next => exact element_ends.bind fun _ _ => hnext

theorem constraint_ends (name : SimpleTag) : Ends (c.constraint tag target around name) := by
  cases name with
  | required | optional | forbidden | immutable | opaqueType | declarativeValidationNative
  | enumExclude => exact Tag.marker_ends _
  | update => exact (Tag.choice_ends _).bind fun _ _ => .ok _
  | minimum => exact (expect_ends _ _).bind fun _ _ => Tag.integerValue_ends.bind fun _ _ => .ok _
  | maxLength | maxItems | maxProperties =>
    exact (expect_ends _ _).bind fun _ _ => Tag.limitValue_ends.bind fun _ _ => .ok _
  | format => exact (expect_ends _ _).bind fun _ _ => (Tag.choice_ends _).bind fun _ _ => .ok _
  | neq => exact differs_ends
  | enum => exact enumeration_ends
  | listType => exact (Tag.choice_ends _).bind fun _ _ => listElement_ends (.ok _)
  | unique => exact (Tag.choice_ends _).bind fun _ _ => listElement_ends (.ok _)
  | listMapKey =>
    exact elementStruct_ends.bind fun _ _ => Tag.wordValue_ends.bind fun _ _ =>
      (fieldOf_ends _ _).bind fun _ _ => .ok _
  | customUnique => exact element_ends.bind fun _ _ => Tag.marker_ends _
  | unionMember | zeroOrOneOfMember =>
    exact (Tag.checkUnionArguments_ends _).bind fun _ _ => Tag.memberName_ends.bind fun _ _ =>
      Tag.unionName_ends.bind fun _ _ => .ok _
  | unionDiscriminator =>
    exact (Tag.checkUnionArguments_ends _).bind fun _ _ => (expect_ends _ _).bind fun _ _ =>
      Tag.unionName_ends.bind fun _ _ => .ok _

theorem selectorKey_ends (type : TypeDef) (argument : Argument) :
    Ends (selectorKey tag type argument) := by
  rw [selectorKey]
  split
  next => exact .error trivial
  next => exact (fieldOf_ends _ _).bind fun _ _ => .ok _

section

variable {nested : Builder} (hnested : ∀ scope target around, Ends (nested scope target around))

include hnested

theorem wrapped_ends (wrap : Rule → Rule) :
    Ends (c.wrapped tag nested scope target around wrap) :=
  (inner_ends tag).bind fun _ _ => (hnested _ _ _).bind fun _ _ => .ok _

theorem directive_ends (directive : Directive) :
    Ends (c.directive tag nested scope target around directive) := by
  cases directive with
  | simple name => exact (constraint_ends name).bind fun _ _ => .ok _
  | eachVal =>
    refine (resolve_ends target).bind fun resolved _ => ?_
    split
    next => exact wrapped_ends hnested _
    next => exact wrapped_ends hnested _
    next => exact .error trivial
  | eachKey =>
    refine (resolve_ends target).bind fun resolved _ => ?_
    split
    next => exact wrapped_ends hnested _
    next => exact .error trivial
  | subfield =>
    refine struct_ends.bind fun type _ => ?_
    split
    next => exact .error trivial
    next => exact (fieldOf_ends _ _).bind fun field _ => wrapped_ends hnested _
  | item =>
    refine elementStruct_ends.bind fun type _ => element_ends.bind fun element _ => ?_
    split
    next => exact .error trivial
    next =>
      exact (FailsWith.mapM (selectorKey_ends type) _).bind fun keys _ => wrapped_ends hnested _
  | conditional polarity => exact (gate_ends tag).bind fun gate _ => wrapped_ends hnested _

theorem step_ends : Ends (c.step tag nested scope target around) := by
  rw [step]
  split
  next => exact unknown_ends tag
  next directive _ =>
    split
    next => exact .error trivial
    next =>
      split
      next => exact .error trivial
      next => exact directive_ends hnested directive

end

/-- The induction is on the nesting of tags. -/
theorem build_ends (tag : Tag) : Ends (c.build tag scope target around) := by
  induction tag generalizing scope target around with
  | bare | valued => exact step_ends fun _ _ _ => .ok _
  | composed head inner ih => exact step_ends fun _ _ _ => ih

theorem check_ends (rules : List Rule) : Ends (check rules) := by
  rw [check]
  split
  next => exact .error trivial
  next =>
    split
    next => exact .error trivial
    next =>
      split
      next =>
        split
        next => exact .error trivial
        next => exact .ok _
      next => exact .ok _

theorem rules_ends (tags : List Tag) : Ends (c.rules tags scope target around) :=
  (FailsWith.mapM build_ends _).bind fun _ _ => (check_ends _).bind fun _ _ => .ok _

theorem fieldRules_ends (field : FieldDef) : Ends (c.fieldRules field) :=
  .bind (.mapError_of_forall fun _ => trivial) fun tags _ => rules_ends tags

theorem typeRules_ends (type : TypeDef) : Ends (c.typeRules type) :=
  .bind (.mapError_of_forall fun _ => trivial) fun tags _ => rules_ends tags

end Compiler

end TaggedSchema
