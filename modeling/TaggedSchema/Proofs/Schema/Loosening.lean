import TaggedSchema.Proofs.Rule.Loosening
import TaggedSchema.Proofs.Schema.Compiled

/-!
# Definitions under options that allow more

A definition that is accepted under some options is accepted under options that allow more, and is
compiled into the same type.
-/

namespace TaggedSchema

namespace Options.Loosens

open Compiler

variable {types : Universe} {options options' : Options} (h : options.Loosens options')

include h

theorem aliasRules (name : String) :
    KeepsResult (Compiler.aliasRules ⟨types, options⟩ name)
      (Compiler.aliasRules ⟨types, options'⟩ name) := by
  simp only [Compiler.aliasRules]
  split
  next type _ =>
    split
    next => exact h.typeRules type
    next => exact .refl _
  next => exact .refl _

theorem planWithin (depth : Nat) (ref : TypeRef) (here : List Rule) :
    KeepsResult (Compiler.planWithin ⟨types, options⟩ depth ref here)
      (Compiler.planWithin ⟨types, options'⟩ depth ref here) := by
  induction depth generalizing ref here with
  | zero => exact .of_error
  | succ depth ih =>
    refine .bind (.refl _) fun resolved => .bind (.mapM h.aliasRules _) fun inherited => ?_
    split
    next => exact .refl _
    next => exact .refl _
    next element _ => exact .bind (.refl _) fun semantics => (ih _ _).bind fun _ => .refl _
    next key value _ => exact (ih _ _).bind fun key => (ih _ _).bind fun _ => .refl _

theorem plan (ref : TypeRef) (here : List Rule) :
    KeepsResult (Compiler.plan ⟨types, options⟩ ref here)
      (Compiler.plan ⟨types, options'⟩ ref here) :=
  h.planWithin _ ref here

theorem field (u : Unions) (field : FieldDef) :
    KeepsResult (Compiler.field ⟨types, options⟩ u field)
      (Compiler.field ⟨types, options'⟩ u field) :=
  (h.fieldRules field).bind fun rules => (h.plan field.type rules).bind fun _ => .refl _

theorem fields (type : String) (u : Unions) (fields : List FieldDef) :
    KeepsResult (Compiler.fields ⟨types, options⟩ type u fields)
      (Compiler.fields ⟨types, options'⟩ type u fields) := by
  induction fields generalizing u with
  | nil => exact .refl _
  | cons field rest ih =>
    exact ((h.field u field).mapError _).bind fun _ => (ih _).bind fun _ => .refl _

theorem structBody (type : String) (fields : List FieldDef) :
    KeepsResult (Compiler.structBody ⟨types, options⟩ type fields)
      (Compiler.structBody ⟨types, options'⟩ type fields) :=
  (h.fields type .empty fields).bind fun _ => .refl _

theorem definition (type : TypeDef) :
    KeepsResult (Compiler.definition ⟨types, options⟩ type)
      (Compiler.definition ⟨types, options'⟩ type) := by
  rw [Compiler.definition, Compiler.definition]
  refine ((h.typeRules type).mapError _).bind fun rules => ?_
  dsimp only
  split
  next fields _ => exact ((h.structBody type.name fields).map _).bind fun _ => .refl _
  next => exact (((h.plan _ _).mapError _).map _).bind fun _ => .refl _

end Options.Loosens

section

variable {types : Universe} {options options' : Options} {type : TypeDef} {compiled : CompiledType}

/-- What is accepted under some options is compiled into the same type under options that allow
more. -/
theorem definition_of_loosens (h : options.Loosens options')
    (hcompiled : Compiler.definition ⟨types, options⟩ type = .ok compiled) :
    Compiler.definition ⟨types, options'⟩ type = .ok compiled :=
  (h.definition type).eq_ok hcompiled

/-- A condition at a field, and one at a constant of the type that the field has. -/
def modeTypes : Universe := Catalog.ofList
  [⟨"Mode", ["+k8s:enum"], .alias (.scalar .string)
      [⟨"Fast", "fast", ["+k8s:ifDisabled(Beta)=+k8s:enumExclude"]⟩, ⟨"Safe", "safe", []⟩]⟩,
    ⟨"Job", [], .struct [⟨"Mode", none, .named "Mode", ["+k8s:ifEnabled(Beta)=+k8s:required"]⟩]⟩]

/-- One more gate in the registry, and unknown tags allowed. -/
theorem definition_of_loosens_mode :
    let strict : Options := ⟨some "k8s", false, some (.ofList ["Beta"])⟩
    let loose : Options := ⟨some "k8s", true, some (.ofList ["Alpha", "Beta"])⟩
    strict.Loosens loose ∧ ∀ type ∈ modeTypes.entries, ∃ compiled,
      Compiler.definition ⟨modeTypes, strict⟩ type = .ok compiled ∧
        Compiler.definition ⟨modeTypes, loose⟩ type = .ok compiled := by
  intro strict loose
  have hloosens : strict.Loosens loose := by
    refine ⟨rfl, nofun, fun registry' hgates => ⟨_, rfl, fun gate hgate => ?_⟩⟩
    obtain rfl := Option.some.inj hgates
    obtain ⟨entry, hentry⟩ := Option.isSome_iff_exists.mp hgate
    have hname : entry = gate := Catalog.name_of_findEntry hentry
    obtain rfl : entry = "Beta" := List.mem_singleton.mp (Catalog.mem_of_get? hentry)
    rw [← hname]
    decide
  refine ⟨hloosens, fun type htype => ?_⟩
  have haccepted : ∀ type ∈ modeTypes.entries,
      (Compiler.definition ⟨modeTypes, strict⟩ type).toOption.isSome = true := by
    decide +kernel
  obtain ⟨compiled, hcompiled⟩ := Option.isSome_iff_exists.mp (haccepted type htype)
  rw [toOption_eq_some_iff] at hcompiled
  exact ⟨compiled, hcompiled, definition_of_loosens hloosens hcompiled⟩

end

end TaggedSchema
