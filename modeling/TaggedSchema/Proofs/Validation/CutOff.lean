import TaggedSchema.Proofs.Rule.CutOff
import TaggedSchema.Proofs.Validation.Comparison
import TaggedSchema.Proofs.Validation.Findings

/-!
# What rules that are cut off find

Nothing but that a value on the way to them does not fit. Such rules may as well be left out.
-/

namespace TaggedSchema

/-- The violation only says that a value does not fit, where no rule would have looked at it. -/
def Violation.isMismatch (violation : Violation) : Bool :=
  violation.origin == "type"

/-- What is left of violations without such mismatches. -/
def withoutMismatches (violations : List Violation) : List Violation :=
  violations.filter fun violation => !violation.isMismatch

theorem withoutMismatches_eq_nil {violations : List Violation}
    (h : ∀ violation ∈ violations, violation.isMismatch = true) :
    withoutMismatches violations = [] := by
  rw [withoutMismatches, List.filter_eq_nil_iff]
  intro violation hviolation
  rw [h violation hviolation]
  exact Bool.false_ne_true

theorem withoutMismatches_append (first second : List Violation) :
    withoutMismatches (first ++ second) =
      withoutMismatches first ++ withoutMismatches second :=
  List.filter_append ..

namespace Site

/-- The same place with other rules at it. -/
def withRules (site : Site) (rules : List Rule) : Site := { site with rules }

end Site

namespace Context

variable {c : Context} {value : Value} {site : Site} {violation : Violation} {rule : Rule}

/-- At a place where no constraint applies, a violation is a mismatch unless the value is checked
and something is found by a rule at another place, or inside. -/
theorem mem_walk_of_no_constraints (hnone : (c.rulesAt site).filterMap Rule.constraint? = [])
    (hown : c.ownConstraints site = []) (h : violation ∈ c.walk value site) :
    violation.isMismatch = true ∨ c.Found value site violation := by
  generalize hfound : c.walk value site = found at h
  have hcourse : c.Course value site found := hfound ▸ c.course value site
  cases hcourse with
  | unchanged hsame => cases h
  | blocked hchanged hblocked =>
    rw [hown, Site.blocked?_nil] at hblocked
    cases hblocked
  | absent hchanged hclear habsent => cases h
  | unfit hchanged hclear hpresent hunfit =>
    left
    rw [List.mem_singleton.mp h, hnone, Violation.isMismatch, Violation.nativeIf_origin]
    rfl
  | checked hchanged hclear hpresent hfits => exact .inr (found_of_mem_checkedViolations h)

theorem constraints_eq_nil {gates : GateView} {rules : List Rule}
    (h : ∀ rule ∈ rules, rule.arrives gates = false) : rules.filterMap Rule.constraint? = [] := by
  rw [List.filterMap_eq_nil_iff]
  intro rule hrule
  cases rule with
  | leaf constraint tag => cases h _ hrule
  | within place inner tag => rfl
  | guarded condition inner tag => rfl

theorem arrives_activeRules {gates : GateView} {rules : List Rule}
    (h : ∀ rule ∈ rules, rule.arrives gates = false) :
    ∀ active ∈ activeRules gates rules, active.arrives gates = false := by
  intro active hactive
  obtain ⟨rule, hrule, hresolve⟩ := mem_activeRules_iff.mp hactive
  rw [Rule.arrives_resolve hresolve]
  exact h rule hrule

/-- Where only the rules at the place itself apply and none of them comes to a constraint, a walk
finds mismatches only. -/
theorem isMismatch_of_not_arrives (hshallow : site.isShallow = true)
    (hrules : ∀ rule ∈ site.rules, rule.arrives c.gates = false)
    (h : violation ∈ c.walk value site) : violation.isMismatch = true := by
  induction value using Value.liesIn_induct generalizing site with
  | step value ih =>
    have hactive := arrives_activeRules hrules
    have hrulesAt : c.rulesAt site = activeRules c.gates site.rules := by
      rw [rulesAt, hshallow, if_pos rfl]
    have hnone := constraints_eq_nil hactive
    have hinside {place : Place} {inner : Rule} {tag : String}
        (hrule : .within place inner tag ∈ c.rulesAt site) (hplace : place.isEach = false) :
        ∀ rule ∈ [inner], rule.arrives c.gates = false := by
      rw [hrulesAt] at hrule
      have harrives := hactive _ hrule
      rw [Rule.arrives, hplace] at harrives
      exact List.forall_mem_singleton.mpr harrives
    -- At a shallow site a walk only goes on by rules, and none of them comes to a constraint.
    rcases mem_walk_of_no_constraints (hrulesAt ▸ hnone) hnone h with
      hmismatch | hhere | ⟨inner, innerSite, hleads, hinner⟩
    · exact hmismatch
    · cases hhere with
      | breach hrule => cases hactive _ (hrulesAt ▸ hrule)
      | repeated hdeep => cases hshallow.symm.trans hdeep
      | union hdeep => cases hshallow.symm.trans hdeep
    · have hliesIn := hleads.liesIn
      cases hleads with
      | subfield hplan hobject hbody hfield hrule =>
        exact ih _ hliesIn rfl (hinside hrule rfl) hinner
      | item hplan hitems hrule => exact ih _ hliesIn rfl (hinside hrule rfl) hinner
      | field hdeep => cases hshallow.symm.trans hdeep
      | element hdeep => cases hshallow.symm.trans hdeep
      | entry hdeep => cases hshallow.symm.trans hdeep
      | key hdeep => cases hshallow.symm.trans hdeep

theorem isMismatch_of_mem_placeViolations {place : Place} (hrule : rule.arrives c.gates = false)
    (h : violation ∈ c.placeViolations value site place rule) : violation.isMismatch = true := by
  have hrules : ∀ other ∈ [rule], other.arrives c.gates = false :=
    List.forall_mem_singleton.mpr hrule
  unfold placeViolations at h
  split at h
  next name access type members hplan =>
    split at h
    next field hfield => exact isMismatch_of_not_arrives rfl hrules h
    next => cases h
  next selector access element semantics items hplan => exact isMismatch_of_not_arrives rfl hrules h
  next => cases h

/-- At a value with nothing inside, rules that come to no constraint find mismatches only. -/
theorem isMismatch_of_scalar (hscalar : value.isScalar = true)
    (hrules : ∀ rule ∈ c.rulesAt site, rule.arrives c.gates = false)
    (hown : c.ownConstraints site = []) (h : violation ∈ c.walk value site) :
    violation.isMismatch = true := by
  rcases mem_walk_of_no_constraints (constraints_eq_nil hrules) hown h with
    hmismatch | hhere | ⟨inner, innerSite, hleads, hinner⟩
  · exact hmismatch
  · cases hhere with
    | breach hrule => cases hrules _ hrule
    | repeated hdeep hplan hitems =>
      rw [hitems] at hscalar
      cases hscalar
    | union hdeep hplan hobject =>
      obtain ⟨members, rfl⟩ := isObject_iff.mp hobject
      cases hscalar
  · cases hleads.liesIn with
    | item => cases hscalar
    | entry => cases hscalar
    | missingItem => cases hscalar
    | scalar => cases hscalar

theorem isMismatch_of_mem_mapKey {key : Plan} {rules : List Rule} {name : String}
    (hnamed : key.access.named = []) (hrules : ∀ rule ∈ rules, rule.arrives c.gates = false)
    (h : violation ∈ c.walk (key.keyValue name) (site.mapKey key rules name)) :
    violation.isMismatch = true := by
  have hrulesAt : c.rulesAt (site.mapKey key rules name) = activeRules c.gates rules := by
    change activeRules c.gates rules ++ c.lentRules key.access.named = activeRules c.gates rules
    rw [hnamed]
    exact List.append_nil _
  have hactive := arrives_activeRules hrules
  have hown : c.ownConstraints (site.mapKey key rules name) = [] := constraints_eq_nil hactive
  rw [← hrulesAt] at hactive
  exact isMismatch_of_scalar (keyValue_isScalar key name) hactive hown h

/-! ## Leaving rules out -/

/-- The walk over the value takes no notice of rules that are cut off. -/
def OverlooksAt (c : Context) (value : Value) : Prop :=
  ∀ (site : Site) (rules rules' : List Rule), site.isShallow = false →
    reachedRules rules = reachedRules rules' →
    withoutMismatches (c.walk value (site.withRules rules)) =
      withoutMismatches (c.walk value (site.withRules rules'))

variable {rules rules' : List Rule}

/-- A rule that is cut off finds mismatches only, unless it applies to elements, values or keys. -/
theorem ruleViolations_of_isCutOff (h : rule.isCutOff = true) :
    withoutMismatches (c.ruleViolations value site rule) = [] := by
  apply withoutMismatches_eq_nil
  intro violation hviolation
  cases rule with
  | leaf constraint tag => cases h
  | guarded condition inner tag => cases hviolation
  | within place inner tag =>
    cases place with
    | subfield | item =>
      exact isMismatch_of_mem_placeViolations (Rule.arrives_of_hasEach h) hviolation
    | eachVal | eachKey =>
      simp only [ruleViolations, placeViolations] at hviolation
      cases hviolation

theorem rules_overlook (value : Value) (site : Site) (rules : List Rule) :
    withoutMismatches (rules.flatMap (c.ruleViolations value site)) =
      withoutMismatches ((reachedRules rules).flatMap (c.ruleViolations value site)) := by
  induction rules with
  | nil => rfl
  | cons rule rules ih =>
    rw [List.flatMap_cons, withoutMismatches_append, ih]
    cases hcut : rule.isCutOff with
    | true =>
      have hleft : reachedRules (rule :: rules) = reachedRules rules := by
        simp [reachedRules, hcut]
      rw [ruleViolations_of_isCutOff hcut, hleft]
      rfl
    | false =>
      have hkept : reachedRules (rule :: rules) = rule :: reachedRules rules := by
        simp [reachedRules, hcut]
      rw [hkept, List.flatMap_cons, withoutMismatches_append]

/-- A key may be left out as well where nothing but a mismatch is found. -/
theorem keyViolations_eq (site : Site) (key : Plan) (rules : List Rule) (name : String) :
    withoutMismatches (c.keyViolations site key rules name) =
      if (site.old.bind fun old => old.member? name).isSome then []
      else withoutMismatches (c.walk (key.keyValue name) (site.mapKey key rules name)) := by
  rw [keyViolations]
  cases hold : (site.old.bind fun old => old.member? name).isSome with
  | true => rfl
  | false =>
    cases hskip : rules.isEmpty && key.access.named.isEmpty with
    | false => rfl
    | true =>
      obtain ⟨hrules, hnamed⟩ := Bool.and_eq_true_iff.mp hskip
      rw [List.isEmpty_iff.mp hrules]
      symm
      apply withoutMismatches_eq_nil
      intro violation hviolation
      exact isMismatch_of_mem_mapKey (List.isEmpty_iff.mp hnamed) (List.forall_mem_nil _) hviolation

/-- The same place, with rules of which the same are not cut off. -/
structure SameReached (site site' : Site) : Prop where
  place : site' = site.withRules site'.rules
  reached : reachedRules site'.rules = reachedRules site.rules

namespace SameReached

variable {site' : Site} (h : SameReached site site')

include h

theorem activeRules_eq (c : Context) :
    reachedRules (activeRules c.gates site'.rules) =
      reachedRules (activeRules c.gates site.rules) := by
  rw [reachedRules_activeRules, h.reached, reachedRules_activeRules]

theorem rulesAt_eq (c : Context) :
    reachedRules (c.rulesAt site') = reachedRules (c.rulesAt site) := by
  have hshallow : site'.isShallow = site.isShallow := by
    rw [h.place]
    rfl
  have hplan : site'.plan = site.plan := by
    rw [h.place]
    rfl
  rw [rulesAt, rulesAt, hshallow, hplan]
  split
  next => exact h.activeRules_eq c
  next => rw [reachedRules_append, reachedRules_append, h.activeRules_eq]

theorem rulesWithin_eq (c : Context) {isPlace : Place → Bool}
    (hplace : ∀ place, isPlace place = true → place.isEach = true) :
    reachedRules (rulesWithin isPlace (c.rulesAt site')) =
      reachedRules (rulesWithin isPlace (c.rulesAt site)) := by
  rw [reachedRules_rulesWithin hplace, h.rulesAt_eq, reachedRules_rulesWithin hplace]

end SameReached

/-- A rule that is cut off is no constraint, so that the same constraints hold without it. -/
theorem comparison_reached (c : Context) :
    Comparison c c SameReached fun found found' =>
      withoutMismatches found' = withoutMismatches found where
  same _ := rfl
  append h hothers := by rw [withoutMismatches_append, withoutMismatches_append, h, hothers]
  place := by
    intro site site' h
    refine ⟨site'.rules, site.plan.access.named, ?_⟩
    rw [Site.relocate, Plan.withNamed_self]
    exact h.place
  blocked := by
    intro site site' h value
    rw [ownConstraints, ownConstraints, ← constraints_reachedRules, h.activeRules_eq,
      constraints_reachedRules]
  mismatch := by
    intro site site' h value
    rw [← constraints_reachedRules, h.rulesAt_eq, constraints_reachedRules]
  rules := by
    intro value ih site site' h
    rw [rules_overlook, h.rulesAt_eq, h.place, ← rules_overlook]
    rfl
  struct := by
    intro site site' h hdeep access name hplan
    rw [h.place]
    cases c.schema.struct? name with
    | none => exact .none
    | some body =>
      refine .some ⟨rfl, rfl, List.forall₂_same.mpr ?_⟩
      exact fun field hfield => ⟨rfl, rfl, rfl⟩
  element := by
    intro site site' h hdeep access element semantics hplan position item
    refine ⟨?_, h.rulesWithin_eq c Place.isEach_of_isEachVal⟩
    rw [h.place]
    rfl
  entry := by
    intro site site' h hdeep access key entry hplan name
    refine ⟨?_, h.rulesWithin_eq c Place.isEach_of_isEachVal⟩
    rw [h.place]
    rfl
  key := by
    intro site site' h hdeep access key entry hplan name ih
    have hold : site'.old = site.old := by
      rw [h.place]
      rfl
    rw [keyViolations_eq, keyViolations_eq, hold]
    congr 1
    refine ih _ _ ⟨?_, h.rulesWithin_eq c Place.isEach_of_isEachKey⟩
    rw [h.place]
    rfl

theorem overlooksAt (value : Value) : c.OverlooksAt value := by
  intro site rules rules' hdeep hsame
  exact (comparison_reached c).tallies value (site.withRules rules') (site.withRules rules)
    ⟨rfl, hsame⟩

end Context

end TaggedSchema
