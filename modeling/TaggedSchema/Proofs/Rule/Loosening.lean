import TaggedSchema.Proofs.Results
import TaggedSchema.Rule.Build

/-!
# Rules under options that allow more

What options forbid is an error, never another rule. Every rule that is built under some options
is built in the same way under options that allow more.
-/

namespace TaggedSchema

/-- The other options allow at least what these do: unknown tags, if they are allowed here, and
every gate that is registered here, or any gate at all. -/
structure Options.Loosens (options options' : Options) : Prop where
  qualifier : options'.qualifier = options.qualifier
  unknown : options.allowUnknownTags = true → options'.allowUnknownTags = true
  gates : ∀ registry', options'.gates = some registry' →
    ∃ registry, options.gates = some registry ∧
      ∀ gate, registry.contains gate = true → registry'.contains gate = true

namespace Options.Loosens

open Compiler

variable {types : Universe} {options options' : Options} (h : options.Loosens options')
variable {tag : Tag} {scope : Scope} {target : TypeRef} {around : Surroundings}

include h

theorem compiles : Compiler.compiles ⟨types, options'⟩ = Compiler.compiles ⟨types, options⟩ := by
  funext tag
  rw [Compiler.compiles, Compiler.compiles, h.qualifier]

theorem inner (tag : Tag) :
    Compiler.inner ⟨types, options'⟩ tag = Compiler.inner ⟨types, options⟩ tag := by
  rw [Compiler.inner, Compiler.inner, h.qualifier]

theorem unknownTag {α : Type} (tag : Tag) :
    KeepsResult (Compiler.unknown (α := α) ⟨types, options⟩ tag)
      (Compiler.unknown ⟨types, options'⟩ tag) := by
  rw [Compiler.unknown, Compiler.unknown]
  split
  next hallowed =>
    rw [if_pos (h.unknown hallowed)]
    exact .refl _
  next => exact .of_error

theorem gate (tag : Tag) :
    KeepsResult (Compiler.gate ⟨types, options⟩ tag) (Compiler.gate ⟨types, options'⟩ tag) := by
  rw [Compiler.gate, Compiler.gate]
  refine .bind (.refl _) fun gate => ?_
  cases hgates' : options'.gates with
  | none =>
    -- Without a registry every gate is taken, so only the first run can fail.
    cases options.gates with
    | none => exact .refl _
    | some registry =>
      dsimp only
      split
      next => exact .refl _
      next => exact .of_error
  | some registry' =>
    obtain ⟨registry, hgates, hsubset⟩ := h.gates registry' hgates'
    rw [hgates]
    dsimp only
    split
    next hcontains =>
      rw [if_pos (hsubset gate hcontains)]
      exact .refl _
    next => exact .of_error

theorem exclusion (tag : Tag) :
    KeepsResult (Compiler.exclusion ⟨types, options⟩ tag)
      (Compiler.exclusion ⟨types, options'⟩ tag) := by
  induction tag with
  | composed head nested ih =>
    simp only [Compiler.exclusion]
    split
    next => exact h.unknownTag _
    next => exact .refl _
    next polarity _ =>
      refine (h.gate _).bind fun gate => ?_
      rw [h.inner]
      exact .bind (.refl _) fun _ => ih.bind fun _ => .refl _
    next => exact .of_error
  | bare head | valued head value =>
    simp only [Compiler.exclusion]
    split
    next => exact h.unknownTag _
    next => exact .refl _
    next => exact (h.gate _).bind fun _ => .of_error
    next => exact .of_error

theorem enumMember (constant : ConstantDef) :
    KeepsResult (Compiler.enumMember ⟨types, options⟩ constant)
      (Compiler.enumMember ⟨types, options'⟩ constant) := by
  rw [Compiler.enumMember, Compiler.enumMember, h.compiles]
  exact .bind (.refl _) fun tags => .bind (.mapM h.exclusion _) fun _ => .refl _

theorem enumeration (tag : Tag) (target : TypeRef) :
    KeepsResult (Compiler.enumeration ⟨types, options⟩ tag target)
      (Compiler.enumeration ⟨types, options'⟩ tag target) := by
  rw [Compiler.enumeration, Compiler.enumeration]
  split
  next => exact .of_error
  next =>
    dsimp only
    split
    next name =>
      split
      next => exact .of_error
      next type _ =>
        split
        next => exact .of_error
        next underlying constants _ =>
          refine .bind (.refl _) fun resolved => ?_
          split
          next => exact .bind (.mapM h.enumMember _) fun _ => .refl _
          next => exact .of_error
    next => exact .of_error

theorem constraint (tag : Tag) (target : TypeRef) (around : Surroundings) (name : SimpleTag) :
    KeepsResult (Compiler.constraint ⟨types, options⟩ tag target around name)
      (Compiler.constraint ⟨types, options'⟩ tag target around name) := by
  cases name with
  | enum => exact h.enumeration tag target
  | _ => exact .refl _

section

variable {nested nested' : Builder}
variable (hnested : ∀ scope target around,
  KeepsResult (nested scope target around) (nested' scope target around))

include hnested

theorem wrapped (tag : Tag) (scope : Scope) (target : TypeRef) (around : Surroundings)
    (wrap : Rule → Rule) :
    KeepsResult (Compiler.wrapped ⟨types, options⟩ tag nested scope target around wrap)
      (Compiler.wrapped ⟨types, options'⟩ tag nested' scope target around wrap) := by
  rw [Compiler.wrapped, Compiler.wrapped, h.inner]
  exact .bind (.refl _) fun _ => (hnested _ _ _).bind fun _ => .refl _

theorem directive (tag : Tag) (directive : Directive) :
    KeepsResult (Compiler.directive ⟨types, options⟩ tag nested scope target around directive)
      (Compiler.directive ⟨types, options'⟩ tag nested' scope target around directive) := by
  cases directive with
  | simple name => exact (h.constraint tag target around name).bind fun _ => .refl _
  | eachVal =>
    refine .bind (.refl _) fun resolved => ?_
    split
    next => exact h.wrapped hnested ..
    next => exact h.wrapped hnested ..
    next => exact .of_error
  | eachKey =>
    refine .bind (.refl _) fun resolved => ?_
    split
    next => exact h.wrapped hnested ..
    next => exact .of_error
  | subfield =>
    refine .bind (.refl _) fun type => ?_
    split
    next => exact .of_error
    next => exact .bind (.refl _) fun field => h.wrapped hnested ..
  | item =>
    refine .bind (.refl _) fun type => .bind (.refl _) fun element => ?_
    split
    next => exact .of_error
    next => exact .bind (.refl _) fun keys => h.wrapped hnested ..
  | conditional polarity => exact (h.gate tag).bind fun gate => h.wrapped hnested ..

theorem step (tag : Tag) (scope : Scope) (target : TypeRef) (around : Surroundings) :
    KeepsResult (Compiler.step ⟨types, options⟩ tag nested scope target around)
      (Compiler.step ⟨types, options'⟩ tag nested' scope target around) := by
  rw [Compiler.step, Compiler.step]
  split
  next => exact h.unknownTag tag
  next directive _ =>
    split
    next => exact .of_error
    next =>
      split
      next => exact .of_error
      next => exact h.directive hnested tag directive

end

/-- The induction is on the nesting of tags. -/
theorem build (tag : Tag) (scope : Scope) (target : TypeRef) (around : Surroundings) :
    KeepsResult (Compiler.build ⟨types, options⟩ tag scope target around)
      (Compiler.build ⟨types, options'⟩ tag scope target around) := by
  induction tag generalizing scope target around with
  | bare | valued => exact h.step (fun _ _ _ => .refl _) ..
  | composed head inner ih => exact h.step ih ..

theorem rules (tags : List Tag) (scope : Scope) (target : TypeRef) (around : Surroundings) :
    KeepsResult (Compiler.rules ⟨types, options⟩ tags scope target around)
      (Compiler.rules ⟨types, options'⟩ tags scope target around) := by
  rw [Compiler.rules, Compiler.rules, h.compiles]
  exact .bind (.mapM (fun tag => h.build tag scope target around) _) fun _ => .refl _

theorem fieldRules (field : FieldDef) :
    KeepsResult (Compiler.fieldRules ⟨types, options⟩ field)
      (Compiler.fieldRules ⟨types, options'⟩ field) :=
  .bind (.refl _) fun tags => h.rules tags ..

theorem typeRules (type : TypeDef) :
    KeepsResult (Compiler.typeRules ⟨types, options⟩ type)
      (Compiler.typeRules ⟨types, options'⟩ type) :=
  .bind (.refl _) fun tags => h.rules tags ..

end Options.Loosens

end TaggedSchema
