import TaggedSchema.Proofs.Rule.Standing
import TaggedSchema.Proofs.Schema.Shaping

/-!
# Rules under opposite conditions

What is built under a condition shapes nothing, and it is built in the same way without the
condition. Of one rule under two opposite conditions exactly one copy is active.
-/

namespace TaggedSchema

/-! ## Activation -/

section

variable {gates : GateView} {gate on off : String}

/-- Either the gate is enabled or it is disabled. -/
theorem activeRules_opposite (rule : Rule) :
    activeRules gates [.guarded (Compiler.condition true gate) rule on,
      .guarded (Compiler.condition false gate) rule off] = activeRules gates [rule] := by
  have hon : (Compiler.condition true gate).holds gates = gates gate := rfl
  have hoff : (Compiler.condition false gate).holds gates = !gates gate := rfl
  simp only [activeRules, List.filterMap_cons, List.filterMap_nil, Rule.resolve, hon, hoff]
  cases hgate : gates gate with
  | true => simp
  | false => simp

end

/-! ## Rules under a condition -/

/-- Nothing that decides what is compiled is under a condition. -/
theorem Rule.WellTyped.shapes_eq_false {types : Universe} {target : TypeRef} {rule : Rule}
    (h : rule.WellTyped types true target) : rule.shapes = false := by
  generalize hconditional : true = conditional at h
  induction h with
  | @leaf conditional target constraint tag hsuits hsettled =>
    subst hconditional
    exact Bool.eq_false_iff.mpr fun hshapes => Bool.noConfusion (hsettled hshapes)
  | guarded => rfl
  | element _ _ ih | entry _ _ ih | key _ _ ih | subfield _ _ _ ih | item _ _ _ _ ih =>
    exact ih hconditional

namespace Compiler

variable {c : Compiler} {tag : Tag} {scope : Scope} {target : TypeRef} {around : Surroundings}
variable {built : Option Rule}

/-- What is built under a condition is built without one. -/
def BuildsUnconditional (build : Builder) : Prop :=
  ∀ scope target around built,
    build scope target { around with conditional := true } = .ok built →
      build scope target around = .ok built

theorem constraint_conditional (name : SimpleTag) :
    c.constraint tag target { around with conditional := true } name =
      c.constraint tag target around name := by
  cases name <;> rfl

section

variable {nested : Builder} (hnested : BuildsUnconditional nested)

include hnested

theorem wrapped_unconditional {wrap : Rule → Rule}
    (h : c.wrapped tag nested scope target { around with conditional := true } wrap = .ok built) :
    c.wrapped tag nested scope target around wrap = .ok built := by
  simp only [wrapped, bind_succeeds_iff, pure_succeeds_iff] at h ⊢
  obtain ⟨inner, hinner, rule, hrule, hbuilt⟩ := h
  exact ⟨inner, hinner, rule, hnested _ _ _ _ hrule, hbuilt⟩

theorem directive_unconditional {directive : Directive}
    (h : c.directive tag nested scope target { around with conditional := true } directive =
      .ok built) :
    c.directive tag nested scope target around directive = .ok built := by
  cases directive with
  | simple name =>
    rw [directive, constraint_conditional] at h
    exact h
  | eachVal =>
    rw [directive, bind_succeeds_iff] at h ⊢
    obtain ⟨resolved, hresolve, h⟩ := h
    refine ⟨resolved, hresolve, ?_⟩
    split at h
    next => exact wrapped_unconditional hnested h
    next => exact wrapped_unconditional hnested h
    next => cases h
  | eachKey =>
    rw [directive, bind_succeeds_iff] at h ⊢
    obtain ⟨resolved, hresolve, h⟩ := h
    refine ⟨resolved, hresolve, ?_⟩
    split at h
    next => exact wrapped_unconditional hnested h
    next => cases h
  | subfield =>
    rw [directive, bind_succeeds_iff] at h ⊢
    obtain ⟨type, htype, h⟩ := h
    refine ⟨type, htype, ?_⟩
    split at h
    next => cases h
    next =>
      rw [bind_succeeds_iff] at h ⊢
      obtain ⟨field, hfield, h⟩ := h
      exact ⟨field, hfield, wrapped_unconditional hnested h⟩
  | item =>
    rw [directive, bind_succeeds_iff] at h ⊢
    obtain ⟨type, htype, h⟩ := h
    rw [bind_succeeds_iff] at h
    obtain ⟨element, helement, h⟩ := h
    refine ⟨type, htype, bind_succeeds_iff.mpr ⟨element, helement, ?_⟩⟩
    split at h
    next => cases h
    next hselects =>
      rw [bind_succeeds_iff] at h
      obtain ⟨keys, hkeys, h⟩ := h
      rw [if_neg hselects, bind_succeeds_iff]
      exact ⟨keys, hkeys, wrapped_unconditional hnested h⟩
  | conditional polarity => exact h

theorem step_unconditional : BuildsUnconditional (c.step tag nested) := by
  intro scope target around built h
  rw [step] at h ⊢
  split at h
  next => exact h
  next directive _ =>
    split at h
    next => cases h
    next hscope =>
      split at h
      next => cases h
      next hsettled =>
        have hfree : directive.isUnconditional = false := by simpa using hsettled
        rw [if_neg hscope, hfree, Bool.and_false, if_neg Bool.false_ne_true]
        exact directive_unconditional hnested h

end

/-- The induction is on the nesting of tags. -/
theorem build_unconditional (tag : Tag) : BuildsUnconditional (c.build tag) := by
  have hnothing : BuildsUnconditional fun _ _ _ => .ok none := fun _ _ _ _ h => h
  induction tag with
  | bare head => exact step_unconditional hnothing
  | valued head value => exact step_unconditional hnothing
  | composed head inner ih => exact step_unconditional ih

/-! ## Tags of a condition -/

/-- A condition is built into the rule of the tag inside it, under the condition. -/
theorem build_conditional {head : Tag.Head} {polarity : Bool} {gate : String}
    (hname : Directive.ofName? head.name = some (.conditional polarity))
    (hgate : (Tag.composed head tag).gateName = .ok gate)
    (h : c.build (.composed head tag) scope target around = .ok built) :
    ∃ inner, c.build tag scope target { around with conditional := true } = .ok inner ∧
      built = inner.map (.guarded (condition polarity gate) · head.raw) := by
  rcases step_eq_ok h with ⟨hnone, -⟩ | ⟨directive, hdirective, -, -, h⟩
  · cases hname.symm.trans hnone
  · cases hname.symm.trans hdirective
    rw [Compiler.directive, bind_succeeds_iff] at h
    obtain ⟨named, hnamed, h⟩ := h
    cases hgate.symm.trans (gateName_of_gate hnamed)
    exact wrapped_eq_ok h

/-- A tag and the two opposite conditions with this tag inside are built into rules that shape
nothing and of which the same are active. -/
theorem buildsRules_opposite {on off : Tag.Head} {gate : String} {rules rules' : List Rule}
    (hon : Directive.ofName? on.name = some (.conditional true))
    (hoff : Directive.ofName? off.name = some (.conditional false))
    (hgate : (Tag.composed on tag).gateName = .ok gate)
    (hgate' : (Tag.composed off tag).gateName = .ok gate)
    (hcompiles : c.compiles tag = true) (hcompiles₁ : c.compiles (.composed on tag) = true)
    (hcompiles₂ : c.compiles (.composed off tag) = true)
    (h : c.BuildsRules [tag] scope target around rules)
    (h' : c.BuildsRules [.composed on tag, .composed off tag] scope target around rules') :
    rules.filter Rule.shapes = [] ∧ rules'.filter Rule.shapes = [] ∧
      ∀ gates, activeRules gates rules' = activeRules gates rules := by
  obtain ⟨built, hbuilt, rfl⟩ := (buildsRules_singleton_iff hcompiles).mp h
  simp only [buildsRules_cons_iff hcompiles₁, buildsRules_singleton_iff hcompiles₂] at h'
  obtain ⟨_, _, hbuilt₁, ⟨_, hbuilt₂, rfl⟩, rfl⟩ := h'
  obtain ⟨inner, hinner, rfl⟩ := build_conditional hon hgate hbuilt₁
  obtain ⟨inner', hinner', rfl⟩ := build_conditional hoff hgate' hbuilt₂
  cases hinner.symm.trans hinner'
  cases hbuilt.symm.trans (build_unconditional tag _ _ _ _ hinner)
  cases built with
  | none => exact ⟨rfl, rfl, fun _ => rfl⟩
  | some rule =>
    have hshapes : rule.shapes = false :=
      (build_accepts tag _ _ _ _ hinner).wellTyped.shapes_eq_false
    refine ⟨?_, rfl, fun gates => activeRules_opposite rule⟩
    rw [Option.toList_some, List.filter_singleton, hshapes]
    rfl

end Compiler

end TaggedSchema
