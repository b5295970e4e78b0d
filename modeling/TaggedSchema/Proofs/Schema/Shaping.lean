import TaggedSchema.Proofs.Rule.Typing
import TaggedSchema.Proofs.Results
import TaggedSchema.Schema.Compile

/-!
# Rules that shape what is compiled

Only few rules are read when a field is compiled: those on the identity of elements, on unions, and
the marks of the field. The others are passed on to the walk, so that fields with the same rules of
the first kind have the same plan and are part of the same unions.
-/

namespace TaggedSchema

/-- Whether the rule decides what its place is compiled into. -/
def Rule.shapes : Rule → Bool
  | leaf constraint _ => constraint.isSettled
  | within _ inner _ => inner.shapes
  | guarded .. => false

variable {p : Rule → Bool} {rules rules' : List Rule}

/-! ## Plans -/

/-- All rules that say something about a list, be it deep inside, satisfy the test. -/
structure SeesLists (p : Rule → Bool) : Prop where
  other (m : ListMetadata) {rule : Rule} (h : p rule = false) : m.add rule = .ok m
  inner (place : Place) (inner : Rule) (tag : String) (hplace : place.isEach = true) :
    p (.within place inner tag) = p inner

namespace SeesLists

variable (h : SeesLists p)

include h

theorem ofRules_filter (rules : List Rule) :
    ListSemantics.ofRules (rules.filter p) = ListSemantics.ofRules rules := by
  rw [ListSemantics.ofRules, ListSemantics.ofRules, foldlM_filter]
  exact fun m rule hrule => h.other m hrule

theorem rulesWithin_filter {isPlace : Place → Bool}
    (hplace : ∀ place, isPlace place = true → place.isEach = true) (rules : List Rule) :
    rulesWithin isPlace (rules.filter p) = (rulesWithin isPlace rules).filter p := by
  rw [rulesWithin, rulesWithin, List.filterMap_filter, List.filter_filterMap]
  congr 1
  funext rule
  cases rule with
  | leaf constraint tag => cases p (.leaf constraint tag) <;> rfl
  | guarded condition inner tag => cases p (.guarded condition inner tag) <;> rfl
  | within place inner tag =>
    cases hsame : isPlace place with
    | false => simp [hsame]
    | true => simp [hsame, h.inner place inner tag (hplace place hsame), Option.filter]

/-- The induction is on the depth of the plan. -/
theorem planWithin_congr {c : Compiler} {depth : Nat} {ref : TypeRef}
    (hsame : rules.filter p = rules'.filter p) :
    c.planWithin depth ref rules = c.planWithin depth ref rules' := by
  induction depth generalizing ref rules rules' with
  | zero => rfl
  | succ depth ih =>
    rw [Compiler.planWithin, Compiler.planWithin]
    refine bind_congr fun resolved => bind_congr fun inherited => ?_
    have hrules : (rules ++ inherited.flatten).filter p =
        (rules' ++ inherited.flatten).filter p := by
      rw [List.filter_append, List.filter_append, hsame]
    have hinner {isPlace : Place → Bool}
        (hplace : ∀ place, isPlace place = true → place.isEach = true) (ref : TypeRef) :
        c.planWithin depth ref (rulesWithin isPlace (rules ++ inherited.flatten)) =
          c.planWithin depth ref (rulesWithin isPlace (rules' ++ inherited.flatten)) := by
      apply ih
      rw [← h.rulesWithin_filter hplace, ← h.rulesWithin_filter hplace, hrules]
    have hsemantics : ListSemantics.ofRules (rules ++ inherited.flatten) =
        ListSemantics.ofRules (rules' ++ inherited.flatten) := by
      rw [← h.ofRules_filter, hrules, h.ofRules_filter]
    split
    next => rfl
    next => rfl
    next element hshape => simp only [hsemantics, hinner Place.isEach_of_isEachVal]
    next key value hshape =>
      simp only [hinner Place.isEach_of_isEachVal, hinner Place.isEach_of_isEachKey]

/-- A plan is what the rules that satisfy the test make it. -/
theorem plan_congr {c : Compiler} {ref : TypeRef} (hsame : rules.filter p = rules'.filter p) :
    c.plan ref rules = c.plan ref rules' :=
  h.planWithin_congr hsame

end SeesLists

/-! ## Fields -/

theorem seesLists_shapes : SeesLists Rule.shapes where
  other m rule hrule := by
    cases rule with
    | leaf constraint tag =>
      cases constraint with
      | listType | listMapKey | unique | customUnique => cases hrule
      | _ => rfl
    | within | guarded => rfl
  inner _ _ _ _ := rfl

theorem Unions.add_of_not_shapes (u : Unions) (field : String) (selector : Option ItemSelector)
    {rule : Rule} (h : rule.shapes = false) : u.add field selector rule = .ok u := by
  cases rule with
  | leaf constraint tag =>
    cases constraint with
    | unionMember | unionDiscriminator | zeroOrOneOf => cases h
    | _ => rfl
  | within | guarded => rfl

theorem Unions.addFieldRule_of_not_shapes (u : Unions) (field : String) {rule : Rule}
    (h : rule.shapes = false) : u.addFieldRule field rule = .ok u := by
  rw [addFieldRule, u.add_of_not_shapes field none h]
  cases rule with
  | leaf | guarded => rfl
  | within place inner tag =>
    cases place with
    | item selector => exact u.add_of_not_shapes field (some selector) h
    | _ => rfl

/-- Fields with the same shaping rules are part of the same unions. -/
theorem foldlM_addFieldRule_congr {field : String} {u : Unions}
    (h : rules.filter Rule.shapes = rules'.filter Rule.shapes) :
    rules.foldlM (Unions.addFieldRule field) u = rules'.foldlM (Unions.addFieldRule field) u := by
  have hskip (u : Unions) (rule : Rule) (hrule : rule.shapes = false) :
      u.addFieldRule field rule = .ok u :=
    u.addFieldRule_of_not_shapes field hrule
  rw [← foldlM_filter hskip, h, foldlM_filter hskip]

/-- They have the same marks. -/
theorem hasConstraint_congr {p : Constraint → Bool}
    (hsettled : ∀ constraint, p constraint = true → constraint.isSettled = true)
    (h : rules.filter Rule.shapes = rules'.filter Rule.shapes) :
    hasConstraint rules p = hasConstraint rules' p := by
  have hfilter (rules : List Rule) :
      hasConstraint (rules.filter Rule.shapes) p = hasConstraint rules p := by
    rw [hasConstraint, hasConstraint, List.any_filter]
    congr 1
    funext rule
    cases rule with
    | leaf constraint tag =>
      rw [Rule.asks, Rule.shapes, Bool.and_eq_right_iff_imp]
      exact hsettled constraint
    | within | guarded => exact Bool.and_false _
  rw [← hfilter, h, hfilter]

end TaggedSchema
