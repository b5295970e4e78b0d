import TaggedSchema.Proofs.Results
import TaggedSchema.Proofs.Rule.CutOff
import TaggedSchema.Schema.Compile

/-!
# Rules without conditions that fail

What is left of rules when those with a condition in them that does not hold are taken out, and of
enumerations when exclusions that are not active are. What is active is the same as before, as is
all that is gathered from rules without a condition.
-/

namespace TaggedSchema

/-- The constant without exclusions that are not active. -/
def EnumMember.pruned (gates : GateView) (member : EnumMember) : EnumMember :=
  { member with exclusions := member.exclusions.filter (Exclusion.isActive gates) }

def Constraint.pruned (gates : GateView) : Constraint → Constraint
  | enumeration members => enumeration (members.map (EnumMember.pruned gates))
  | constraint => constraint

/-- What is left of a rule, if all conditions in it hold. -/
def Rule.prune? (gates : GateView) : Rule → Option Rule
  | leaf constraint tag => some (leaf (constraint.pruned gates) tag)
  | within place inner tag => (inner.prune? gates).map fun inner => within place inner tag
  | guarded condition inner tag =>
    if condition.holds gates then (inner.prune? gates).map fun inner => guarded condition inner tag
    else none

/-- What is left of rules. -/
def prunedRules (gates : GateView) (rules : List Rule) : List Rule :=
  rules.filterMap (Rule.prune? gates)

variable {gates : GateView}

/-! ## Constraints -/

theorem EnumMember.isExcluded_pruned (member : EnumMember) :
    (member.pruned gates).isExcluded gates = member.isExcluded gates := by
  simp [isExcluded, pruned, List.any_filter]

theorem allowedValues_pruned (members : List EnumMember) :
    allowedValues gates (members.map (EnumMember.pruned gates)) = allowedValues gates members := by
  rw [allowedValues, allowedValues, List.filter_map, List.map_map]
  simp only [Function.comp_def, EnumMember.isExcluded_pruned]
  rfl

namespace Constraint

/-- Whatever does not depend on the constants of an enumeration is the same. -/
theorem pruned_congr {α : Type} {f : Constraint → α}
    (hf : ∀ members members', f (enumeration members) = f (enumeration members'))
    (constraint : Constraint) : f (constraint.pruned gates) = f constraint := by
  cases constraint with
  | enumeration members => exact hf _ _
  | _ => rfl

theorem pruned_of_tag {constraint : Constraint} (h : constraint.tag ≠ .enum) :
    constraint.pruned gates = constraint := by
  cases constraint with
  | enumeration members => exact absurd rfl h
  | _ => rfl

end Constraint

/-! ## Rules -/

namespace Rule

/-- Whatever a function of a rule without a condition makes of what is left, it makes of the rule,
if it takes no notice of the other rules. -/
theorem elim_prune? {α : Type} {f : Rule → α} {d : α}
    (hleaf : ∀ constraint tag, f (leaf (constraint.pruned gates) tag) = f (leaf constraint tag))
    (hwithin : ∀ place inner tag, f (within place inner tag) = d)
    (hguarded : ∀ condition inner tag, f (guarded condition inner tag) = d) (rule : Rule) :
    (rule.prune? gates).elim d f = f rule := by
  cases rule with
  | leaf constraint tag => exact hleaf constraint tag
  | within place inner tag =>
    rw [hwithin, prune?]
    cases inner.prune? gates with
    | none => rfl
    | some inner => exact hwithin place inner tag
  | guarded condition inner tag =>
    rw [hguarded, prune?]
    split
    next =>
      cases inner.prune? gates with
      | none => rfl
      | some inner => exact hguarded condition inner tag
    next => rfl

/-- The same is left of the active rule as is active of what is left. -/
theorem resolve_prune? (rule : Rule) :
    (rule.prune? gates).bind (resolve gates) = (rule.resolve gates).bind (prune? gates) := by
  induction rule with
  | leaf constraint tag => rfl
  | within place inner tag ih =>
    change _ = prune? gates (within place inner tag)
    rw [prune?]
    cases inner.prune? gates <;> rfl
  | guarded condition inner tag ih =>
    rw [prune?, resolve]
    split
    next hholds =>
      rw [← ih]
      cases inner.prune? gates with
      | none => rfl
      | some inner => exact if_pos hholds
    next => rfl

theorem prune?_of_resolve {rule active : Rule} (h : rule.resolve gates = some active)
    (hnone : rule.prune? gates = none) : active.prune? gates = none := by
  have hsame : (rule.prune? gates).bind (resolve gates) =
      (rule.resolve gates).bind (prune? gates) := rule.resolve_prune?
  rwa [hnone, h, Option.bind_none, Option.bind_some, eq_comm] at hsame

/-- By a rule of which nothing is left, no constraint is reached. -/
theorem arrives_of_prune? {rule : Rule} (h : rule.prune? gates = none) :
    rule.arrives gates = false := by
  induction rule with
  | leaf constraint tag => cases h
  | within place inner tag ih =>
    rw [prune?, Option.map_eq_none_iff] at h
    rw [arrives, ih h, Bool.and_false]
  | guarded condition inner tag ih =>
    rw [arrives]
    cases hholds : condition.holds gates with
    | false => rfl
    | true =>
      rw [prune?, if_pos hholds, Option.map_eq_none_iff] at h
      rw [ih h, Bool.and_false]

/-- Whether no condition fails in a rule on a subfield or on keys to which the rule leads. -/
def isPassable (gates : GateView) : Rule → Bool
  | leaf .. => true
  | within (.subfield _) inner _ | within .eachKey inner _ => (inner.prune? gates).isSome
  | within _ inner _ => inner.isPassable gates
  | guarded condition inner _ => !condition.holds gates || inner.isPassable gates

theorem isPassable_of_prune? {rule left : Rule} (h : rule.prune? gates = some left) :
    rule.isPassable gates = true := by
  induction rule generalizing left with
  | leaf constraint tag => rfl
  | within place inner tag ih =>
    obtain ⟨inner', hinner, -⟩ := Option.map_eq_some_iff.mp h
    cases place with
    | subfield | eachKey =>
      rw [isPassable, hinner]
      rfl
    | item | eachVal => exact ih hinner
  | guarded condition inner tag ih =>
    rw [prune?, Option.ite_none_right_eq_some] at h
    obtain ⟨inner', hinner, -⟩ := Option.map_eq_some_iff.mp h.2
    rw [isPassable, ih hinner, Bool.or_true]

theorem isPassable_resolve {rule active : Rule} (h : rule.resolve gates = some active)
    (hpassable : rule.isPassable gates = true) : active.isPassable gates = true := by
  induction rule with
  | leaf constraint tag =>
    cases h
    exact hpassable
  | within place inner tag =>
    cases h
    exact hpassable
  | guarded condition inner tag ih =>
    rw [resolve, Option.ite_none_right_eq_some] at h
    rw [isPassable, h.1, Bool.not_true, Bool.false_or] at hpassable
    exact ih h.2 hpassable

theorem isPassable_inner {place : Place} {inner : Rule} {tag : String}
    (h : (within place inner tag).isPassable gates = true) : inner.isPassable gates = true := by
  cases place with
  | subfield | eachKey =>
    obtain ⟨left, hleft⟩ := Option.isSome_iff_exists.mp h
    exact isPassable_of_prune? hleft
  | item | eachVal => exact h

/-- No part of what is left is less stable than one there was before. -/
theorem all_prune? {rule left part : Rule} (h : rule.prune? gates = some left)
    (hpart : part ∈ left.all) : ∃ given ∈ rule.all, given.stability = part.stability := by
  induction rule generalizing left with
  | leaf constraint tag =>
    cases h
    rcases List.mem_cons.mp hpart with rfl | hpart
    · have hsame : (constraint.pruned gates).stability = constraint.stability :=
        Constraint.pruned_congr (fun _ _ => rfl) constraint
      exact ⟨_, List.mem_cons_self, hsame.symm⟩
    · cases constraint with
      | enumeration members =>
        obtain ⟨_, hleft, hpart⟩ := List.mem_flatMap.mp hpart
        obtain ⟨member, hmember, rfl⟩ := List.mem_map.mp hleft
        obtain ⟨exclusion, hexclusion, hpart⟩ := List.mem_flatMap.mp hpart
        have hgiven : part ∈ member.rules :=
          List.mem_flatMap.mpr ⟨exclusion, (List.mem_filter.mp hexclusion).1, hpart⟩
        exact ⟨part, List.mem_cons_of_mem _ (List.mem_flatMap.mpr ⟨member, hmember, hgiven⟩), rfl⟩
      | _ => cases hpart
  | within place inner tag ih =>
    obtain ⟨inner', hinner, rfl⟩ := Option.map_eq_some_iff.mp h
    rcases List.mem_cons.mp hpart with rfl | hpart
    · exact ⟨_, List.mem_cons_self, rfl⟩
    · obtain ⟨given, hgiven, hsame⟩ := ih hinner hpart
      exact ⟨given, List.mem_cons_of_mem _ hgiven, hsame⟩
  | guarded condition inner tag ih =>
    rw [prune?, Option.ite_none_right_eq_some] at h
    obtain ⟨inner', hinner, rfl⟩ := Option.map_eq_some_iff.mp h.2
    rcases List.mem_cons.mp hpart with rfl | hpart
    · exact ⟨_, List.mem_cons_self, rfl⟩
    · obtain ⟨given, hgiven, hsame⟩ := ih hinner hpart
      exact ⟨given, List.mem_cons_of_mem _ hgiven, hsame⟩

end Rule

/-! ## Lists of rules -/

theorem prunedRules_append (first second : List Rule) :
    prunedRules gates (first ++ second) = prunedRules gates first ++ prunedRules gates second :=
  List.filterMap_append

theorem flatMap_prunedRules {α : Type} (f : Rule → List α) (rules : List Rule) :
    (prunedRules gates rules).flatMap f =
      rules.flatMap fun rule => (rule.prune? gates).elim [] f := by
  rw [prunedRules, List.filterMap_eq_flatMap_toList, List.flatMap_assoc]
  congr 1
  funext rule
  cases rule.prune? gates with
  | none => rfl
  | some left => exact List.flatMap_singleton f left

theorem activeRules_prunedRules (rules : List Rule) :
    activeRules gates (prunedRules gates rules) = prunedRules gates (activeRules gates rules) := by
  rw [activeRules, prunedRules, prunedRules, activeRules, List.filterMap_filterMap,
    List.filterMap_filterMap]
  congr 1
  funext rule
  exact rule.resolve_prune?

theorem rulesWithin_prunedRules (isPlace : Place → Bool) (rules : List Rule) :
    rulesWithin isPlace (prunedRules gates rules) =
      prunedRules gates (rulesWithin isPlace rules) := by
  rw [rulesWithin, prunedRules, prunedRules, rulesWithin, List.filterMap_filterMap,
    List.filterMap_filterMap]
  congr 1
  funext rule
  cases rule with
  | leaf constraint tag => rfl
  | within place inner tag =>
    rw [Rule.prune?]
    cases hplace : isPlace place <;> cases hinner : inner.prune? gates <;> simp [hplace, hinner]
  | guarded condition inner tag =>
    rw [Rule.prune?]
    split
    next => cases inner.prune? gates <;> rfl
    next => rfl

theorem constraints_prunedRules (rules : List Rule) :
    (prunedRules gates rules).filterMap Rule.constraint? =
      (rules.filterMap Rule.constraint?).map (Constraint.pruned gates) := by
  rw [prunedRules, List.filterMap_filterMap, List.map_filterMap]
  congr 1
  funext rule
  cases rule with
  | leaf constraint tag => rfl
  | within place inner tag =>
    rw [Rule.prune?]
    cases inner.prune? gates <;> rfl
  | guarded condition inner tag =>
    rw [Rule.prune?]
    split
    next => cases inner.prune? gates <;> rfl
    next => rfl

theorem hasConstraint_prunedRules {p : Constraint → Bool}
    (hp : ∀ members members', p (.enumeration members) = p (.enumeration members'))
    (rules : List Rule) : hasConstraint (prunedRules gates rules) p = hasConstraint rules p := by
  have hasks (rule : Rule) : (rule.prune? gates).elim false (Rule.asks p) = rule.asks p :=
    Rule.elim_prune? (fun constraint _ => Constraint.pruned_congr hp constraint)
      (fun _ _ _ => rfl) (fun _ _ _ => rfl) rule
  induction rules with
  | nil => rfl
  | cons rule rules ih =>
    rw [hasConstraint, hasConstraint] at ih
    rw [hasConstraint, hasConstraint, prunedRules, List.any_cons, ← ih, ← hasks, prunedRules,
      List.filterMap_cons]
    cases rule.prune? gates <;> rfl

/-- What is gathered from rules is gathered from what is left of them. -/
theorem foldlM_prunedRules {α : Type} {f : α → Rule → Except BuildError α}
    (hf : ∀ a rule, (rule.prune? gates).elim (.ok a) (f a) = f a rule) (rules : List Rule) (a : α) :
    (prunedRules gates rules).foldlM f a = rules.foldlM f a := by
  induction rules generalizing a with
  | nil => rfl
  | cons rule rules ih =>
    rw [List.foldlM_cons, ← hf, prunedRules, List.filterMap_cons]
    cases rule.prune? gates with
    | none => exact ih a
    | some left =>
      rw [List.foldlM_cons]
      congr 1
      funext a
      exact ih a

theorem listSemantics_prunedRules (rules : List Rule) :
    ListSemantics.ofRules (prunedRules gates rules) = ListSemantics.ofRules rules := by
  rw [ListSemantics.ofRules, foldlM_prunedRules]
  · rfl
  · intro m rule
    refine Rule.elim_prune? (fun constraint tag => ?_) (fun _ _ _ => rfl) (fun _ _ _ => rfl) rule
    exact Constraint.pruned_congr (f := fun constraint => m.add (.leaf constraint tag))
      (fun _ _ => rfl) constraint

namespace Unions

theorem add_prune? (gates : GateView) (u : Unions) (field : String) (selector : Option ItemSelector) (rule : Rule) :
    (rule.prune? gates).elim (.ok u) (u.add field selector) = u.add field selector rule := by
  refine Rule.elim_prune? (fun constraint tag => ?_) (fun _ _ _ => rfl) (fun _ _ _ => rfl) rule
  exact Constraint.pruned_congr (f := fun constraint => u.add field selector (.leaf constraint tag))
    (fun _ _ => rfl) constraint

/-- A rule on an item makes of it what is left of the rule makes of it. -/
theorem addFieldRule_prune? (field : String) (u : Unions) (rule : Rule) :
    (rule.prune? gates).elim (.ok u) (addFieldRule field u) = addFieldRule field u rule := by
  cases rule with
  | leaf constraint tag =>
    change u.add field none (.leaf (constraint.pruned gates) tag) >>= pure =
      u.add field none (.leaf constraint tag) >>= pure
    rw [← u.add_prune? gates field none (.leaf constraint tag)]
    rfl
  | guarded condition inner tag =>
    rw [Rule.prune?]
    split
    next => cases inner.prune? gates <;> rfl
    next => rfl
  | within place inner tag =>
    rw [Rule.prune?]
    cases place with
    | item selector =>
      have hadd := u.add_prune? gates field (some selector) inner
      change _ = u.add field (some selector) inner
      rw [← hadd]
      cases inner.prune? gates <;> rfl
    | _ => cases inner.prune? gates <;> rfl

theorem addFieldRules_prunedRules (field : String) (rules : List Rule) (u : Unions) :
    (prunedRules gates rules).foldlM (addFieldRule field) u = rules.foldlM (addFieldRule field) u :=
  foldlM_prunedRules (addFieldRule_prune? field) rules u

end Unions

end TaggedSchema
