import Mathlib.Data.List.Basic
import TaggedSchema.Rule.Activation
import TaggedSchema.Schema.Plan

/-!
# Rules that are cut off

A walk that has come to a subfield or an item by a rule only applies that rule there, and does not
go on to elements, values or keys. A rule on these that lies below a subfield or an item is cut off.
-/

namespace TaggedSchema

/-- The elements of a list, or the values or keys of a map. -/
def Place.isEach (place : Place) : Bool :=
  place.isEachVal || place.isEachKey

theorem Place.isEach_of_isEachVal (place : Place) (h : place.isEachVal = true) :
    place.isEach = true := by
  rw [isEach, h, Bool.true_or]

theorem Place.isEach_of_isEachKey (place : Place) (h : place.isEachKey = true) :
    place.isEach = true := by
  rw [isEach, h, Bool.or_true]

namespace Rule

/-- Whether a rule on elements, values or keys lies anywhere inside. -/
def hasEach : Rule → Bool
  | leaf .. => false
  | within place inner _ => place.isEach || inner.hasEach
  | guarded _ inner _ => inner.hasEach

/-- Whether a rule on elements, values or keys lies below a subfield or an item. -/
def isCutOff : Rule → Bool
  | leaf .. => false
  | within place inner _ => if place.isEach then inner.isCutOff else inner.hasEach
  | guarded _ inner _ => inner.isCutOff

variable {gates : GateView} {rule active : Rule}

/-- What does not depend on conditions is the same of the rule under them. -/
theorem eq_of_resolve {α : Type} (f : Rule → α)
    (hguarded : ∀ condition inner tag, f (guarded condition inner tag) = f inner)
    (h : rule.resolve gates = some active) : f active = f rule := by
  induction rule with
  | leaf constraint tag =>
    cases h
    rfl
  | within place inner tag =>
    cases h
    rfl
  | guarded condition inner tag ih =>
    rw [resolve, Option.ite_none_right_eq_some] at h
    rw [hguarded]
    exact ih h.2

theorem isCutOff_resolve (h : rule.resolve gates = some active) :
    active.isCutOff = rule.isCutOff :=
  eq_of_resolve isCutOff (fun _ _ _ => rfl) h

/-- Whether a walk that only applies this rule comes to a constraint by it. -/
def arrives (gates : GateView) : Rule → Bool
  | leaf .. => true
  | within place inner _ => !place.isEach && inner.arrives gates
  | guarded condition inner _ => condition.holds gates && inner.arrives gates

theorem arrives_resolve (h : rule.resolve gates = some active) :
    active.arrives gates = rule.arrives gates := by
  induction rule with
  | leaf constraint tag =>
    cases h
    rfl
  | within place inner tag =>
    cases h
    rfl
  | guarded condition inner tag ih =>
    rw [resolve, Option.ite_none_right_eq_some] at h
    rw [arrives, h.1, Bool.true_and]
    exact ih h.2

theorem arrives_of_hasEach (h : rule.hasEach = true) : rule.arrives gates = false := by
  induction rule with
  | leaf constraint tag => cases h
  | within place inner tag ih =>
    rw [arrives]
    rcases Bool.or_eq_true_iff.mp h with heach | hinner
    · rw [heach]
      rfl
    · rw [ih hinner, Bool.and_false]
  | guarded condition inner tag ih => rw [arrives, ih h, Bool.and_false]

end Rule

/-! ## Lists of rules -/

/-- The rules that are not cut off. -/
def reachedRules (rules : List Rule) : List Rule :=
  rules.filter fun rule => !rule.isCutOff

variable {rules : List Rule}

theorem mem_activeRules_iff {gates : GateView} {active : Rule} :
    active ∈ activeRules gates rules ↔ ∃ given ∈ rules, given.resolve gates = some active :=
  List.mem_filterMap

theorem mem_rulesWithin_iff {isPlace : Place → Bool} {inner : Rule} :
    inner ∈ rulesWithin isPlace rules ↔
      ∃ place tag, isPlace place = true ∧ .within place inner tag ∈ rules := by
  rw [rulesWithin, List.mem_filterMap]
  constructor
  · rintro ⟨rule, hrule, h⟩
    cases rule with
    | within place inner tag =>
      simp only [Option.ite_none_right_eq_some, Option.some.injEq] at h
      obtain ⟨hplace, rfl⟩ := h
      exact ⟨place, tag, hplace, hrule⟩
    | _ => cases h
  · rintro ⟨place, tag, hplace, hrule⟩
    exact ⟨_, hrule, if_pos hplace⟩

theorem reachedRules_append (first second : List Rule) :
    reachedRules (first ++ second) = reachedRules first ++ reachedRules second :=
  List.filter_append ..

theorem reachedRules_insert {before after : List Rule} {rule : Rule}
    (h : rule.isCutOff = true) :
    reachedRules (before ++ rule :: after) = reachedRules (before ++ after) := by
  rw [reachedRules_append, reachedRules_append, reachedRules, reachedRules, List.filter_cons_of_neg]
  · rfl
  · rw [h]
    exact Bool.false_ne_true

theorem reachedRules_activeRules (gates : GateView) (rules : List Rule) :
    reachedRules (activeRules gates rules) = activeRules gates (reachedRules rules) := by
  rw [reachedRules, activeRules, activeRules, reachedRules, List.filter_filterMap,
    List.filterMap_filter]
  congr 1
  funext rule
  cases hactive : rule.resolve gates with
  | none => simp
  | some active => simp [Option.filter, Rule.isCutOff_resolve hactive]

/-- What a rule on elements, values or keys holds is cut off with the rule. -/
theorem reachedRules_rulesWithin {isPlace : Place → Bool}
    (hplace : ∀ place, isPlace place = true → place.isEach = true) (rules : List Rule) :
    reachedRules (rulesWithin isPlace rules) = rulesWithin isPlace (reachedRules rules) := by
  rw [reachedRules, rulesWithin, rulesWithin, reachedRules, List.filter_filterMap,
    List.filterMap_filter]
  congr 1
  funext rule
  cases rule with
  | leaf constraint tag => simp
  | guarded condition inner tag => simp
  | within place inner tag =>
    cases his : isPlace place with
    | false => simp [his]
    | true => simp [his, Rule.isCutOff, hplace place his, Option.filter]

theorem constraints_reachedRules (rules : List Rule) :
    (reachedRules rules).filterMap Rule.constraint? = rules.filterMap Rule.constraint? := by
  rw [reachedRules, List.filterMap_filter]
  congr 1
  funext rule
  cases rule with
  | leaf constraint tag => rfl
  | within place inner tag => simp [Rule.constraint?]
  | guarded condition inner tag => simp [Rule.constraint?]

end TaggedSchema
