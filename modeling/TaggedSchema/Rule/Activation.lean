import TaggedSchema.Rule.Basic

/-!
# Active rules

The only place where gates are consulted. A rule is active when all conditions in front of it
hold, and a constant is excluded when one of its exclusions is active.
-/

namespace TaggedSchema

/-- The rule under its conditions, if they all hold. -/
def Rule.resolve (gates : GateView) : Rule → Option Rule
  | guarded condition inner _ => if condition.holds gates then inner.resolve gates else none
  | rule => some rule

def Rule.isActive (gates : GateView) (rule : Rule) : Bool :=
  (rule.resolve gates).isSome

/-- The active rules in order, without their conditions. -/
def activeRules (gates : GateView) (rules : List Rule) : List Rule :=
  rules.filterMap (Rule.resolve gates)

def Exclusion.isActive (gates : GateView) : Exclusion → Bool
  | always _ => true
  | guarded condition inner _ => condition.holds gates && inner.isActive gates

def EnumMember.isExcluded (gates : GateView) (member : EnumMember) : Bool :=
  member.exclusions.any (Exclusion.isActive gates)

/-- The values that are allowed at present, in the order of declaration. -/
def allowedValues (gates : GateView) (members : List EnumMember) : List String :=
  (members.filter fun member => !member.isExcluded gates).map EnumMember.value

end TaggedSchema
