import TaggedSchema.Proofs.Schema.ListMetadata
import TaggedSchema.Proofs.Schema.Typing

/-!
# Places in plans

Every plan in a plan is the one of a reference with the rules that stand there: what the rules
around say about each element, key or value, and what aliases lend on the way.
-/

namespace TaggedSchema

/-- The reference of each element, value or key. -/
def Shape.at? : Shape → Place → Option TypeRef
  | slice element, .eachVal => some element
  | map _ value, .eachVal => some value
  | map key _, .eachKey => some key
  | _, _ => none

/-- The plan of each element, value or key. -/
def Plan.at? : Plan → Place → Option Plan
  | list _ element _, .eachVal => some element
  | map _ _ value, .eachVal => some value
  | map _ key _, .eachKey => some key
  | _, _ => none

/-- The plan to which the places lead, one after the other. -/
def Plan.inside? (plan : Plan) (places : List Place) : Option Plan :=
  places.foldlM Plan.at? plan

theorem Plan.inside?_cons_eq_some_iff {plan part : Plan} {place : Place} {places : List Place} :
    plan.inside? (place :: places) = some part ↔
      ∃ next, plan.at? place = some next ∧ next.inside? places = some part := by
  rw [inside?, List.foldlM_cons, Option.bind_eq_bind, Option.bind_eq_some_iff]
  rfl

/-- What is known of a list; nothing of other values. -/
def Plan.semantics? : Plan → Option ListSemantics
  | list _ _ semantics => some semantics
  | _ => none

theorem Plan.semantics?_eq_some_iff {plan : Plan} {semantics : ListSemantics} :
    plan.semantics? = some semantics ↔
      ∃ access element, plan = .list access element semantics := by
  cases plan <;> simp [semantics?]

/-- Whether a place stands for the same elements, values or keys as the first one. -/
def Place.isLike : Place → Place → Bool
  | eachVal => isEachVal
  | eachKey => isEachKey
  | _ => fun _ => false

/-- A reference with the rules that are said to apply at it. -/
structure RuledRef where
  ref : TypeRef
  rules : List Rule

namespace Compiler

variable {c : Compiler} {plan part : Plan} {place : Place}
variable {rules : List Rule} {r s : RuledRef}

/-- The rules that are read for the plan, those that aliases lend to it included. -/
def read? (c : Compiler) (r : RuledRef) : Option (List Rule) := do
  let resolved ← (c.resolve r.ref).toOption
  let inherited ← (resolved.named.mapM c.aliasRules).toOption
  return r.rules ++ inherited.flatten

/-- The reference of each element, value or key, with the rules about them. -/
def at? (c : Compiler) (r : RuledRef) (place : Place) : Option RuledRef := do
  let resolved ← (c.resolve r.ref).toOption
  let rules ← c.read? r
  let ref ← resolved.shape.at? place
  return ⟨ref, rulesWithin place.isLike rules⟩

def inside? (c : Compiler) (r : RuledRef) (places : List Place) : Option RuledRef :=
  places.foldlM c.at? r

theorem inside?_cons_eq_some_iff {places : List Place} :
    c.inside? r (place :: places) = some s ↔
      ∃ t, c.at? r place = some t ∧ c.inside? t places = some s := by
  rw [inside?, List.foldlM_cons, Option.bind_eq_bind, Option.bind_eq_some_iff]
  rfl

/-- The plan is the one of the reference with its rules. -/
def IsPlanOf (c : Compiler) (r : RuledRef) (plan : Plan) : Prop :=
  c.Plans r.ref r.rules plan

/-- All rules are accepted for the reference at which they stand. -/
def Accepted (c : Compiler) (r : RuledRef) : Prop :=
  ∀ rule ∈ r.rules, c.AcceptsAt r.ref rule

theorem read?_eq_some_iff : c.read? r = some rules ↔
    ∃ resolved inherited, c.resolve r.ref = .ok resolved ∧
      resolved.named.mapM c.aliasRules = .ok inherited ∧ rules = r.rules ++ inherited.flatten := by
  simp only [read?, Option.bind_eq_bind, Option.bind_eq_some_iff, Option.pure_def,
    Option.some.injEq, toOption_eq_some_iff]
  constructor
  · rintro ⟨resolved, hresolve, inherited, hinherited, rfl⟩
    exact ⟨resolved, inherited, hresolve, hinherited, rfl⟩
  · rintro ⟨resolved, inherited, hresolve, hinherited, rfl⟩
    exact ⟨resolved, hresolve, inherited, hinherited, rfl⟩

theorem subset_of_read? (h : c.read? r = some rules) : r.rules ⊆ rules := by
  obtain ⟨resolved, inherited, -, -, rfl⟩ := read?_eq_some_iff.mp h
  exact List.subset_append_left _ _

theorem at?_eq_some_iff : c.at? r place = some s ↔
    ∃ resolved rules ref, c.resolve r.ref = .ok resolved ∧ c.read? r = some rules ∧
      resolved.shape.at? place = some ref ∧ s = ⟨ref, rulesWithin place.isLike rules⟩ := by
  simp only [at?, Option.bind_eq_bind, Option.bind_eq_some_iff, Option.pure_def,
    Option.some.injEq, toOption_eq_some_iff]
  constructor
  · rintro ⟨resolved, hresolve, rules, hread, ref, hat, rfl⟩
    exact ⟨resolved, rules, ref, hresolve, hread, hat, rfl⟩
  · rintro ⟨resolved, rules, ref, hresolve, hread, hat, rfl⟩
    exact ⟨resolved, hresolve, rules, hread, ref, hat, rfl⟩

/-- A plan is made from the rules that are read for it. -/
theorem IsPlanOf.read (h : c.IsPlanOf r plan) :
    ∃ resolved rules, c.resolve r.ref = .ok resolved ∧ c.read? r = some rules ∧
      c.PlansAs ⟨resolved.nullable, resolved.named⟩ rules resolved.shape plan := by
  obtain ⟨resolved, inherited, hresolve, hinherited, hplans⟩ := h.inherited
  exact ⟨resolved, _, hresolve,
    read?_eq_some_iff.mpr ⟨resolved, inherited, hresolve, hinherited, rfl⟩, hplans⟩

/-- The semantics of a plan are made from the rules that are read for it. -/
theorem IsPlanOf.semantics {semantics : ListSemantics} (h : c.IsPlanOf r plan)
    (hsemantics : plan.semantics? = some semantics) :
    ∃ rules, c.read? r = some rules ∧ ListSemantics.ofRules rules = .ok semantics := by
  obtain ⟨resolved, rules, -, hread, hplans⟩ := h.read
  generalize resolved.shape = shape at hplans
  cases hplans with
  | slice hmade hinner =>
    cases hsemantics
    exact ⟨rules, hread, hmade⟩
  | _ => cases hsemantics

/-- What is known of a shape is known of its plan: both have the same places, with references and
their plans there. -/
theorem PlansAs.places {access : Access} {shape : Shape} (h : c.PlansAs access rules shape plan)
    (place : Place) :
    Option.Rel (fun ref part => c.IsPlanOf ⟨ref, rulesWithin place.isLike rules⟩ part)
      (shape.at? place) (plan.at? place) := by
  cases h with
  | scalar | struct => exact .none
  | slice hsemantics hinner =>
    cases place with
    | eachVal => exact .some hinner
    | _ => exact .none
  | map hkey hvalue =>
    cases place with
    | eachVal => exact .some hvalue
    | eachKey => exact .some hkey
    | _ => exact .none

/-- The step: a plan in a plan is the one of the reference there, with the rules there. -/
theorem IsPlanOf.step (h : c.IsPlanOf r plan) (hpart : plan.at? place = some part) :
    ∃ s, c.at? r place = some s ∧ c.IsPlanOf s part := by
  obtain ⟨resolved, rules, hresolve, hread, hplans⟩ := h.read
  rcases optionRel_cases (hplans.places place) with
    ⟨-, hnone⟩ | ⟨ref, part', hat, hpart', hinner⟩
  · cases hnone.symm.trans hpart
  · cases hpart.symm.trans hpart'
    exact ⟨_, at?_eq_some_iff.mpr ⟨resolved, rules, ref, hresolve, hread, hat, rfl⟩, hinner⟩

/-- The run: wherever the places lead to in a plan, a reference stands there with its rules. -/
theorem IsPlanOf.inside {places : List Place} (h : c.IsPlanOf r plan)
    (hpart : plan.inside? places = some part) :
    ∃ s, c.inside? r places = some s ∧ c.IsPlanOf s part := by
  induction places generalizing r plan with
  | nil =>
    cases hpart
    exact ⟨r, rfl, h⟩
  | cons place places ih =>
    obtain ⟨next, hnext, hpart⟩ := Plan.inside?_cons_eq_some_iff.mp hpart
    obtain ⟨s, hstep, hs⟩ := h.step hnext
    obtain ⟨t, hinside, ht⟩ := ih hs hpart
    exact ⟨t, inside?_cons_eq_some_iff.mpr ⟨s, hstep, hinside⟩, ht⟩

/-! ## Accepted rules -/

/-- The rules of an alias are accepted for the shape to which it leads. -/
theorem Accepted.read (h : c.Accepted r) {resolved : Resolved}
    (hresolve : c.resolve r.ref = .ok resolved) (hread : c.read? r = some rules) :
    ∀ rule ∈ rules, c.AcceptsFor resolved.shape rule := by
  obtain ⟨resolved', inherited, hresolve', hinherited, rfl⟩ := read?_eq_some_iff.mp hread
  cases hresolve.symm.trans hresolve'
  intro rule hrule
  rcases List.mem_append.mp hrule with hrule | hrule
  · obtain ⟨scope, around, haccepts⟩ := h rule hrule
    exact ⟨scope, r.ref, around, resolved, haccepts, hresolve, rfl⟩
  · obtain ⟨lent, hlent, hrule⟩ := List.mem_flatten.mp hrule
    obtain ⟨name, hname, hlends⟩ := exists_input_of_mapM hinherited hlent
    obtain ⟨resolved'', hnamed, hshape⟩ :=
      Universe.resolve_named (mapError_succeeds_iff.mp hresolve) hname
    rw [aliasRules] at hlends
    split at hlends
    next type hget =>
      split at hlends
      next =>
        have haccepts := typeRules_accepts hlends hrule
        rw [Catalog.name_of_findEntry hget] at haccepts
        exact ⟨_, _, _, resolved'', haccepts, mapError_succeeds_iff.mpr hnamed, hshape⟩
      next =>
        cases hlends
        cases hrule
    next =>
      cases hlends
      cases hrule

/-- The step: what is accepted about elements, values or keys is accepted for their reference. -/
theorem Accepted.step (h : c.Accepted r) (hstep : c.at? r place = some s) : c.Accepted s := by
  obtain ⟨resolved, rules, ref, hresolve, hread, hat, rfl⟩ := at?_eq_some_iff.mp hstep
  have haccepted := h.read hresolve hread
  intro inner hinner
  obtain ⟨around, tag, hlike, hrule⟩ := mem_rulesWithin_iff.mp hinner
  have hrule := haccepted _ hrule
  generalize resolved.shape = shape at hat hrule
  cases shape with
  | slice element =>
    cases place with
    | eachVal =>
      cases hat
      exact hrule.element hlike
    | _ => cases hat
  | map key value =>
    cases place with
    | eachVal =>
      cases hat
      exact hrule.entry hlike
    | eachKey =>
      cases hat
      exact hrule.key hlike
    | _ => cases hat
  | _ => cases hat

/-- The run: the rules at every place inside are accepted for the reference there. -/
theorem Accepted.inside {places : List Place} (h : c.Accepted r)
    (hinside : c.inside? r places = some s) : c.Accepted s := by
  induction places generalizing r with
  | nil =>
    cases hinside
    exact h
  | cons place places ih =>
    obtain ⟨next, hnext, hinside⟩ := inside?_cons_eq_some_iff.mp hinside
    exact ih (h.step hnext) hinside

end Compiler

end TaggedSchema
