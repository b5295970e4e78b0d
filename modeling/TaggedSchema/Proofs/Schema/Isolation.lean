import TaggedSchema.Proofs.Schema.Lists
import TaggedSchema.Proofs.Schema.Signatures

/-!
# How far a rejected definition reaches

A definition is compiled by the tags of its own and by the type tags of the aliases that its plans
meet. Taking the tags off another definition makes no difference if that is a struct or is not met.
Where an alias is met, its tags are read again, so they have to make sense there as well.
-/

namespace TaggedSchema

namespace Compiler

variable {c c' : Compiler} {r : RuledRef} {plan : Plan} {name : String}

/-! ## Definitions -/

/-- The references that are planned for a definition, with the rules at them. -/
def Root (c : Compiler) (type : TypeDef) (r : RuledRef) : Prop :=
  match type.body with
  | .struct fields => ∃ field ∈ fields, r.ref = field.type ∧ c.fieldRules field = .ok r.rules
  | .alias .. => r = ⟨.named type.name, []⟩

section Definitions

variable {u v w : Unions} {field : FieldDef} {fields : List FieldDef}
variable {compiled kept : CompiledField} {others othersKept : List CompiledField} {type : String}

/-- The rules of a field and what it adds to unions are the same, so that only its plan may
differ. -/
theorem Alike.field_eq (h : c.Alike c') (hfield : c'.field u field = .ok (compiled, v)) :
    c.field u field =
      (c.plan field.type compiled.rules).map fun plan => ({ compiled with plan }, v) := by
  obtain ⟨rules, plan, hrules, -, hunions, rfl⟩ := field_eq_ok hfield
  rw [h.fieldRules] at hrules
  rw [Compiler.field, hrules]
  simp only [bind, Except.bind, hunions]
  cases c.plan field.type rules <;> rfl

theorem Alike.field_unions (h : c.Alike c') (hfield : c'.field u field = .ok (compiled, v))
    (hkept : c.field u field = .ok (kept, w)) : w = v := by
  rw [h.field_eq hfield] at hkept
  obtain ⟨plan, -, ⟨⟩⟩ := map_succeeds_iff.mp hkept
  rfl

theorem Alike.exists_field_iff (h : c.Alike c') (hfield : c'.field u field = .ok (compiled, v)) :
    (∃ kept, c.field u field = .ok (kept, v)) ↔
      ∀ rules, c.fieldRules field = .ok rules → c.ReadsInside ⟨field.type, rules⟩ := by
  have heq := h.field_eq hfield
  obtain ⟨rules, plan, hrules, hplan, -, rfl⟩ := field_eq_ok hfield
  rw [h.fieldRules] at hrules
  rw [heq, hrules]
  constructor
  · rintro ⟨kept, hkept⟩ _ ⟨⟩
    obtain ⟨plan', hplan', -⟩ := map_succeeds_iff.mp hkept
    exact (h.exists_plan_iff hplan).mp ⟨plan', hplan'⟩
  · intro hreads
    obtain ⟨plan', hplan'⟩ := (h.exists_plan_iff hplan).mpr (hreads rules rfl)
    rw [hplan']
    exact ⟨_, rfl⟩

theorem Alike.fields_unions (h : c.Alike c') (hfields : c'.fields type u fields = .ok (others, v))
    (hkept : c.fields type u fields = .ok (othersKept, w)) : w = v := by
  induction fields generalizing u others othersKept with
  | nil =>
    cases hfields
    cases hkept
    rfl
  | cons field fields ih =>
    obtain ⟨first, u', rest, hfirst, hrest, -⟩ := fields_cons_eq_ok hfields
    obtain ⟨firstKept, u'', restKept, hfirstKept, hrestKept, -⟩ := fields_cons_eq_ok hkept
    cases h.field_unions hfirst hfirstKept
    exact ih hrest hrestKept

theorem Alike.exists_fields_iff (h : c.Alike c')
    (hfields : c'.fields type u fields = .ok (others, v)) :
    (∃ othersKept, c.fields type u fields = .ok (othersKept, v)) ↔
      ∀ field ∈ fields, ∀ rules, c.fieldRules field = .ok rules →
        c.ReadsInside ⟨field.type, rules⟩ := by
  induction fields generalizing u others with
  | nil =>
    cases hfields
    exact ⟨fun _ => List.forall_mem_nil _, fun _ => ⟨_, rfl⟩⟩
  | cons field fields ih =>
    obtain ⟨first, u', rest, hfirst, hrest, -⟩ := fields_cons_eq_ok hfields
    rw [List.forall_mem_cons, ← h.exists_field_iff hfirst, ← ih hrest]
    constructor
    · rintro ⟨othersKept, hkept⟩
      obtain ⟨firstKept, u'', restKept, hfirstKept, hrestKept, -⟩ := fields_cons_eq_ok hkept
      cases h.field_unions hfirst hfirstKept
      exact ⟨⟨_, hfirstKept⟩, ⟨_, hrestKept⟩⟩
    · rintro ⟨⟨firstKept, hfirstKept⟩, ⟨restKept, hrestKept⟩⟩
      exact ⟨_, fields_cons_of_ok hfirstKept hrestKept⟩

theorem Alike.fields_eq (h : c.Alike c') (hfields : c'.fields type u fields = .ok (others, v))
    (hsame : ∀ compiled ∈ others, ∀ name, compiled.plan.Meets name →
      c'.aliasRules name = c.aliasRules name) :
    c.fields type u fields = .ok (others, v) := by
  induction fields generalizing u others with
  | nil =>
    cases hfields
    rfl
  | cons field fields ih =>
    obtain ⟨first, u', rest, hfirst, hrest, rfl⟩ := fields_cons_eq_ok hfields
    obtain ⟨hsameFirst, hsameRest⟩ := List.forall_mem_cons.mp hsame
    have hkept : c.field u field = .ok (first, u') := by
      rw [h.field_eq hfirst]
      obtain ⟨rules, plan, -, hplan, -, rfl⟩ := field_eq_ok hfirst
      rw [h.plan_eq hplan hsameFirst]
      rfl
    exact fields_cons_of_ok hkept (ih hrest hsameRest)

end Definitions

variable {type : TypeDef} {compiled : CompiledType}

theorem Alike.exists_definition_iff (h : c.Alike c')
    (hsame : c'.types.get? type.name = c.types.get? type.name)
    (hdefinition : c'.definition type = .ok compiled) :
    (∃ kept, c.definition type = .ok kept) ↔ ∀ r, c.Root type r → c.ReadsInside r := by
  obtain ⟨-, hrules, hbody⟩ := definition_spec hdefinition
  rw [h.typeRules (congrArg (Option.map TypeDef.constants) hsame)] at hrules
  rcases hbody with ⟨fields, body, htype, -, hbody⟩ | ⟨underlying, constants, plan, htype, -, hplan⟩
  · obtain ⟨others, u, hfields, hmembers, rfl⟩ := structBody_eq_ok_iff.mp hbody
    have hroots : (∀ r, c.Root type r → c.ReadsInside r) ↔
        ∀ field ∈ fields, ∀ rules, c.fieldRules field = .ok rules →
          c.ReadsInside ⟨field.type, rules⟩ := by
      simp only [Root, htype]
      constructor
      · exact fun h field hfield rules hrules => h _ ⟨field, hfield, rfl, hrules⟩
      · rintro h ⟨ref, rules⟩ ⟨field, hfield, rfl, hrules⟩
        exact h field hfield rules hrules
    rw [hroots, ← h.exists_fields_iff hfields]
    constructor
    · rintro ⟨kept, hkept⟩
      obtain ⟨-, -, ⟨fields', body', htype', -, hbody'⟩ | ⟨_, _, _, halias, -, -⟩⟩ :=
        definition_spec hkept
      · cases htype.symm.trans htype'
        obtain ⟨othersKept, u', hkept, -, -⟩ := structBody_eq_ok_iff.mp hbody'
        cases h.fields_unions hfields hkept
        exact ⟨othersKept, hkept⟩
      · cases htype.symm.trans halias
    · rintro ⟨othersKept, hkept⟩
      have hbody := structBody_eq_ok_iff.mpr ⟨othersKept, u, hkept, hmembers, rfl⟩
      exact ⟨_, definition_of_struct hrules htype hbody⟩
  · have hroots : (∀ r, c.Root type r → c.ReadsInside r) ↔
        c.ReadsInside ⟨.named type.name, []⟩ := by
      simp only [Root, htype, forall_eq]
    rw [hroots, ← h.exists_plan_iff hplan]
    constructor
    · rintro ⟨kept, hkept⟩
      obtain ⟨-, -, ⟨_, _, hstruct, -, -⟩ | ⟨_, _, plan', -, -, hplan'⟩⟩ := definition_spec hkept
      · cases htype.symm.trans hstruct
      · exact ⟨plan', hplan'⟩
    · rintro ⟨plan', hplan'⟩
      exact ⟨_, definition_of_alias hrules htype hplan'⟩

theorem Alike.definition_eq (h : c.Alike c')
    (hsame : c'.types.get? type.name = c.types.get? type.name)
    (hdefinition : c'.definition type = .ok compiled)
    (hlends : ∀ plan ∈ compiled.body.plans, ∀ name, plan.Meets name →
      c'.aliasRules name = c.aliasRules name) :
    c.definition type = .ok compiled := by
  obtain ⟨hname, hrules, hbody⟩ := definition_spec hdefinition
  rw [h.typeRules (congrArg (Option.map TypeDef.constants) hsame)] at hrules
  obtain ⟨name, rules, body⟩ := compiled
  cases hname
  rcases hbody with ⟨fields, struct, htype, rfl, hbody⟩ |
    ⟨underlying, constants, plan, htype, rfl, hplan⟩
  · obtain ⟨others, u, hfields, hmembers, rfl⟩ := structBody_eq_ok_iff.mp hbody
    have hkept : c.fields type.name .empty fields = .ok (others, u) :=
      h.fields_eq hfields fun field hfield => hlends field.plan (List.mem_map_of_mem hfield)
    have hbody := structBody_eq_ok_iff.mpr ⟨others, u, hkept, hmembers, rfl⟩
    exact definition_of_struct hrules htype hbody
  · refine definition_of_alias hrules htype (h.plan_eq hplan (hlends plan ?_))
    exact List.mem_singleton_self plan

/-- Every plan of a definition is the one of a reference at which there are rules. -/
theorem Alike.exists_root (h : c.Alike c') (hdefinition : c'.definition type = .ok compiled)
    (hplan : plan ∈ compiled.body.plans) :
    ∃ r, c.Root type r ∧ c'.Plans r.ref r.rules plan := by
  obtain ⟨-, -, ⟨fields, body, htype, hbody, hstruct⟩ | ⟨_, _, plan', htype, hbody, hplan'⟩⟩ :=
    definition_spec hdefinition
  · rw [hbody] at hplan
    obtain ⟨compiled, hcompiled, rfl⟩ := List.mem_map.mp hplan
    obtain ⟨field, hfield, hcompiles⟩ :=
      exists_of_forall₂ (structBody_compilesTo hstruct) hcompiled
    have hrules := hcompiles.rules
    rw [h.fieldRules] at hrules
    refine ⟨⟨field.type, compiled.rules⟩, ?_, _, hcompiles.plan⟩
    rw [Root, htype]
    exact ⟨field, hfield, rfl, hrules⟩
  · rw [hbody] at hplan
    obtain rfl := List.mem_singleton.mp hplan
    refine ⟨⟨.named type.name, []⟩, ?_, _, hplan'⟩
    rw [Root, htype]

/-! ## Taking the tags off one definition -/

section

variable {types : Universe} {options : Options} {other : String}

theorem alike_untag (types : Universe) (options : Options) (name : String) :
    Alike ⟨types, options⟩ ⟨types.untag name, options⟩ where
  options := rfl
  types := types.sameSignatures_untag name

/-- The others lend the same rules. -/
theorem aliasRules_untag_of_ne (h : other ≠ name) :
    aliasRules ⟨types.untag name, options⟩ other = aliasRules ⟨types, options⟩ other := by
  rw [aliasRules, aliasRules, Universe.get?_untag_of_ne h]
  cases hget : types.get? other with
  | none => rfl
  | some type =>
    have hname : type.name ≠ name := by rwa [Catalog.name_of_findEntry hget]
    have hkept : (types.untag name).get? type.name = types.get? type.name :=
      Universe.get?_untag_of_ne hname
    have hsame := congrArg (Option.map TypeDef.constants) hkept
    simp only [(alike_untag types options name).typeRules hsame]

/-- A struct lends none to begin with. -/
theorem aliasRules_untag_self
    (h : ∀ definition, types.get? name = some definition → definition.isAlias = false) :
    aliasRules ⟨types.untag name, options⟩ name = aliasRules ⟨types, options⟩ name := by
  rw [aliasRules, aliasRules, Universe.get?_untag_self]
  cases hget : types.get? name with
  | none => rfl
  | some definition => simp [TypeDef.isAlias_untagged, h definition hget]

end

end Compiler

/-- Let a type be compiled where another definition has no tags. With these tags it is compiled
too if and only if rules can be read at all places in it. It is compiled into the same unless its
plans meet the other definition and that is an alias. If they meet an alias of which the type tags
are wrong, then it is rejected with the alias. -/
theorem compile_untag {types : Universe} {options : Options} {name other : String}
    (hne : other ≠ name) {type : TypeDef} (htype : types.get? other = some type)
    {compiled : CompiledType}
    (h : (compile (types.untag name) options).schema.get? other = some compiled) :
    ((∃ kept, (compile types options).schema.get? other = some kept) ↔
      ∀ r, Compiler.Root ⟨types, options⟩ type r → Compiler.ReadsInside ⟨types, options⟩ r) ∧
    ((∀ definition, types.get? name = some definition → definition.isAlias = false) ∨
        (∀ plan ∈ compiled.body.plans, ¬plan.Meets name) →
      (compile types options).schema.get? other = some compiled) ∧
    ∀ definition error, types.get? name = some definition → definition.isAlias = true →
      Compiler.typeRules ⟨types, options⟩ definition = .error error →
      (∃ plan ∈ compiled.body.plans, plan.Meets name) →
        (compile types options).schema.get? other = none := by
  have halike := Compiler.alike_untag types options name
  have hname : type.name ≠ name := by rwa [Catalog.name_of_findEntry htype]
  have hsame : (types.untag name).get? type.name = types.get? type.name :=
    Universe.get?_untag_of_ne hname
  have htype' : (types.untag name).get? other = some type := by
    rw [Universe.get?_untag_of_ne hne, htype]
  have hdefinition := (schema_get?_eq_some_iff htype').mp h
  have hiff : (∃ kept, (compile types options).schema.get? other = some kept) ↔
      ∀ r, Compiler.Root ⟨types, options⟩ type r → Compiler.ReadsInside ⟨types, options⟩ r := by
    simp only [schema_get?_eq_some_iff htype]
    exact halike.exists_definition_iff hsame hdefinition
  refine ⟨hiff, ?unmet, ?met⟩
  case unmet =>
    intro hunmet
    rw [schema_get?_eq_some_iff htype]
    refine halike.definition_eq hsame hdefinition fun plan hplan met hmet => ?_
    by_cases heq : met = name
    · subst heq
      rcases hunmet with hstruct | hunmet
      · exact Compiler.aliasRules_untag_self hstruct
      · exact absurd hmet (hunmet plan hplan)
    · exact Compiler.aliasRules_untag_of_ne heq
  case met =>
    rintro definition error hget halias herror ⟨plan, hplan, hmeets⟩
    rw [Option.eq_none_iff_forall_not_mem]
    intro kept hkept
    obtain ⟨r, hroot, hplans⟩ := halike.exists_root hdefinition hplan
    obtain ⟨lent, hlent⟩ := halike.lends_of_meets hplans (hiff.mp ⟨kept, hkept⟩ r hroot) hmeets
    simp only [Compiler.aliasRules, hget, halias, if_true, herror] at hlent
    cases hlent

/-- The length of a list is not that of a text. -/
def codesType : TypeDef := ⟨"Codes", ["+k8s:maxLength=3"], .alias (.slice (.scalar .string)) []⟩

def shopTypes : Universe := Catalog.ofList
  [codesType, ⟨"Order", [], .struct [⟨"Codes", none, .named "Codes", []⟩]⟩,
    ⟨"Shop", [], .struct [⟨"Owner", none, .scalar .string, ["+k8s:required"]⟩]⟩]

/-- Orders have codes and are rejected with them, and shops are not. -/
theorem compile_untag_shop :
    ∃ order shop, shopTypes.get? "Order" = some order ∧ shopTypes.get? "Shop" = some shop ∧
      ∃ compiledOrder compiledShop,
        (compile (shopTypes.untag "Codes") .default).schema.get? "Order" = some compiledOrder ∧
        (compile (shopTypes.untag "Codes") .default).schema.get? "Shop" = some compiledShop ∧
        (compile shopTypes .default).schema.get? "Codes" = none ∧
        (compile shopTypes .default).schema.get? "Order" = none ∧
        (compile shopTypes .default).schema.get? "Shop" = some compiledShop := by
  have hcodes : ((compile shopTypes .default).schema.get? "Codes").isNone = true := by
    decide +kernel
  have horder : ((compile (shopTypes.untag "Codes") .default).schema.get? "Order").any
      (fun type => type.body.plans.any fun plan => plan.access.named.contains "Codes") = true := by
    decide +kernel
  have hshop : ((compile (shopTypes.untag "Codes") .default).schema.get? "Shop").any
      (fun type => type.body.plans == [.scalar ⟨false, []⟩ .string]) = true := by
    decide +kernel
  obtain ⟨error, herror⟩ :
      ∃ error, Compiler.typeRules ⟨shopTypes, .default⟩ codesType = .error error := by
    have hfails :
        (errorOf? (Compiler.typeRules ⟨shopTypes, .default⟩ codesType)).isSome = true := by
      decide +kernel
    cases hrules : Compiler.typeRules ⟨shopTypes, .default⟩ codesType with
    | error error => exact ⟨error, rfl⟩
    | ok rules =>
      rw [hrules] at hfails
      cases hfails
  obtain ⟨compiledOrder, hcompiledOrder, hplans⟩ := (Option.any_eq_true _ _).mp horder
  obtain ⟨plan, hplan, hnamed⟩ := List.any_eq_true.mp hplans
  have hmeets : plan.Meets "Codes" := Plan.meets_of_named (List.contains_iff_mem.mp hnamed)
  obtain ⟨compiledShop, hcompiledShop, hscalar⟩ := (Option.any_eq_true _ _).mp hshop
  have hunmet : ∀ plan ∈ compiledShop.body.plans, ¬plan.Meets "Codes" := by
    rw [eq_of_beq hscalar]
    rintro plan hplan ⟨places, part, hpart, hname⟩
    obtain rfl := List.mem_singleton.mp hplan
    cases places with
    | nil =>
      cases hpart
      cases hname
    | cons place places => cases place <;> cases hpart
  exact ⟨_, _, rfl, rfl, compiledOrder, compiledShop, hcompiledOrder, hcompiledShop,
    Option.isNone_iff_eq_none.mp hcodes,
    (compile_untag (by decide) rfl hcompiledOrder).2.2 codesType error rfl rfl herror
      ⟨plan, hplan, hmeets⟩,
    (compile_untag (by decide) rfl hcompiledShop).2.1 (.inr hunmet)⟩

end TaggedSchema
