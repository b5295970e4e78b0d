import TaggedSchema.Proofs.Results
import TaggedSchema.Proofs.Rule.CutOff

/-!
# Rules that are accepted

What the builder has checked of a rule that it builds, at every depth. Each tag is one that its
place allows, and a composed rule is built against a type that has the place it leads to.
-/

namespace TaggedSchema.Compiler

/-- The rule is one that is built in this scope for this type. -/
inductive Accepts (c : Compiler) : Scope → TypeRef → Surroundings → Rule → Prop where
  | leaf {scope : Scope} {target : TypeRef} {around : Surroundings} {tag : Tag} {name : SimpleTag}
      {constraint : Constraint} (hscope : scope ∈ name.scopes)
      (hsettled : (around.conditional && name.isUnconditional) = false)
      (hbuilt : c.constraint tag target around name = .ok constraint) :
      Accepts c scope target around (.leaf constraint tag.raw)
  | guarded {scope : Scope} {target : TypeRef} {around : Surroundings} {tag : Tag}
      {polarity : Bool} {gate : String} {inner : Rule} (hgate : c.gate tag = .ok gate)
      (hinner : Accepts c scope target { around with conditional := true } inner) :
      Accepts c scope target around (.guarded (condition polarity gate) inner tag.raw)
  | element {scope : Scope} {target element : TypeRef} {around : Surroundings} {tag : Tag}
      {resolved : Resolved} {inner : Rule} (hresolve : c.resolve target = .ok resolved)
      (hshape : resolved.shape = .slice element)
      (hinner : Accepts c .listValue element around inner) :
      Accepts c scope target around (.within .eachVal inner tag.raw)
  | entry {scope : Scope} {target key value : TypeRef} {around : Surroundings} {tag : Tag}
      {resolved : Resolved} {inner : Rule} (hresolve : c.resolve target = .ok resolved)
      (hshape : resolved.shape = .map key value)
      (hinner : Accepts c .mapValue value around inner) :
      Accepts c scope target around (.within .eachVal inner tag.raw)
  | key {scope : Scope} {target key value : TypeRef} {around : Surroundings} {tag : Tag}
      {resolved : Resolved} {inner : Rule} (hresolve : c.resolve target = .ok resolved)
      (hshape : resolved.shape = .map key value)
      (hinner : Accepts c .mapKey key around inner) :
      Accepts c scope target around (.within .eachKey inner tag.raw)
  | subfield {scope : Scope} {target : TypeRef} {around : Surroundings} {tag : Tag}
      {type : TypeDef} {jsonName : String} {field : FieldDef} {inner : Rule}
      (hstruct : c.struct tag target = .ok type) (hfield : type.field? jsonName = some field)
      (hinner : Accepts c .field field.type { around with memberName := some field.name } inner) :
      Accepts c scope target around (.within (.subfield jsonName) inner tag.raw)
  | item {scope : Scope} {target element : TypeRef} {around : Surroundings} {tag : Tag}
      {type : TypeDef} {keys : List (String × Value)} {inner : Rule}
      (hstruct : c.elementStruct tag target = .ok type)
      (helement : c.element tag target = .ok element) (hselects : tag.arguments.isEmpty = false)
      (hkeys : tag.arguments.mapM (selectorKey tag type) = .ok keys)
      (hinner : Accepts c .listValue element
        { around with memberName := keys.head?.map fun key => identityText key.2 } inner) :
      Accepts c scope target around (.within (.item ⟨keys⟩) inner tag.raw)

variable {c : Compiler} {scope : Scope} {target : TypeRef} {around : Surroundings} {rule : Rule}

/-! ## What the builder builds -/

/-- A builder builds accepted rules only. -/
def BuildsAccepted (c : Compiler) (build : Builder) : Prop :=
  ∀ scope target around rule, build scope target around = .ok (some rule) →
    c.Accepts scope target around rule

theorem wrapped_eq_ok {tag : Tag} {nested : Builder} {wrap : Rule → Rule} {built : Option Rule}
    (h : c.wrapped tag nested scope target around wrap = .ok built) :
    ∃ inner, nested scope target around = .ok inner ∧ built = inner.map wrap := by
  simp only [wrapped, bind_succeeds_iff, pure_succeeds_iff] at h
  obtain ⟨-, -, inner, hinner, rfl⟩ := h
  exact ⟨inner, hinner, rfl⟩

theorem wrapped_eq_some {tag : Tag} {nested : Builder} {wrap : Rule → Rule}
    (h : c.wrapped tag nested scope target around wrap = .ok (some rule)) :
    ∃ inner, nested scope target around = .ok (some inner) ∧ rule = wrap inner := by
  obtain ⟨built, hbuilt, h⟩ := wrapped_eq_ok h
  obtain ⟨inner, rfl, rfl⟩ := Option.map_eq_some_iff.mp h.symm
  exact ⟨inner, hbuilt, rfl⟩

theorem fieldOf_eq_ok {tag : Tag} {type : TypeDef} {jsonName : String} {field : FieldDef}
    (h : fieldOf tag type jsonName = .ok field) : type.field? jsonName = some field := by
  rw [fieldOf] at h
  split at h
  next found hfound =>
    cases h
    exact hfound
  next => cases h

theorem directive_accepts {tag : Tag} {nested : Builder} {directive : Directive}
    (hnested : c.BuildsAccepted nested) (hscope : scope ∈ directive.scopes)
    (hsettled : (around.conditional && directive.isUnconditional) = false)
    (h : c.directive tag nested scope target around directive = .ok (some rule)) :
    c.Accepts scope target around rule := by
  cases directive with
  | simple name =>
    rw [Compiler.directive, bind_succeeds_iff] at h
    obtain ⟨constraint, hbuilt, h⟩ := h
    cases h
    exact .leaf hscope hsettled hbuilt
  | eachVal =>
    rw [Compiler.directive, bind_succeeds_iff] at h
    obtain ⟨resolved, hresolve, h⟩ := h
    split at h
    next element hshape =>
      obtain ⟨inner, hinner, rfl⟩ := wrapped_eq_some h
      exact .element hresolve hshape (hnested _ _ _ _ hinner)
    next key value hshape =>
      obtain ⟨inner, hinner, rfl⟩ := wrapped_eq_some h
      exact .entry hresolve hshape (hnested _ _ _ _ hinner)
    next => cases h
  | eachKey =>
    rw [Compiler.directive, bind_succeeds_iff] at h
    obtain ⟨resolved, hresolve, h⟩ := h
    split at h
    next key value hshape =>
      obtain ⟨inner, hinner, rfl⟩ := wrapped_eq_some h
      exact .key hresolve hshape (hnested _ _ _ _ hinner)
    next => cases h
  | subfield =>
    rw [Compiler.directive, bind_succeeds_iff] at h
    obtain ⟨type, hstruct, h⟩ := h
    split at h
    next => cases h
    next jsonName _ =>
      rw [bind_succeeds_iff] at h
      obtain ⟨field, hfield, h⟩ := h
      obtain ⟨inner, hinner, rfl⟩ := wrapped_eq_some h
      exact .subfield hstruct (fieldOf_eq_ok hfield) (hnested _ _ _ _ hinner)
  | item =>
    rw [Compiler.directive, bind_succeeds_iff] at h
    obtain ⟨type, hstruct, h⟩ := h
    rw [bind_succeeds_iff] at h
    obtain ⟨element, helement, h⟩ := h
    split at h
    next => cases h
    next hselects =>
      rw [bind_succeeds_iff] at h
      obtain ⟨keys, hkeys, h⟩ := h
      obtain ⟨inner, hinner, rfl⟩ := wrapped_eq_some h
      exact .item hstruct helement (eq_false_of_ne_true hselects) hkeys (hnested _ _ _ _ hinner)
  | conditional polarity =>
    rw [Compiler.directive, bind_succeeds_iff] at h
    obtain ⟨gate, hgate, h⟩ := h
    obtain ⟨inner, hinner, rfl⟩ := wrapped_eq_some h
    exact .guarded hgate (hnested _ _ _ _ hinner)

theorem unknown_eq_ok {α : Type} {tag : Tag} {built : Option α}
    (h : c.unknown tag = .ok built) : built = none := by
  rw [unknown] at h
  split at h
  next => exact (Except.ok.inj h).symm
  next => cases h

/-- Nothing is built from a tag whose name is not known, and any other has passed the checks of its
name and scope. -/
theorem step_eq_ok {tag : Tag} {nested : Builder} {built : Option Rule}
    (h : c.step tag nested scope target around = .ok built) :
    (Directive.ofName? tag.name = none ∧ built = none) ∨
      ∃ directive, Directive.ofName? tag.name = some directive ∧ scope ∈ directive.scopes ∧
        (around.conditional && directive.isUnconditional) = false ∧
        c.directive tag nested scope target around directive = .ok built := by
  rw [step] at h
  split at h
  next hname => exact .inl ⟨hname, unknown_eq_ok h⟩
  next directive hname =>
    split at h
    next => cases h
    next hscope =>
      split at h
      next => cases h
      next hsettled =>
        exact .inr ⟨directive, hname, by simpa using hscope, eq_false_of_ne_true hsettled, h⟩

theorem step_accepts {tag : Tag} {nested : Builder} (hnested : c.BuildsAccepted nested) :
    c.BuildsAccepted (c.step tag nested) := by
  intro scope target around rule h
  rcases step_eq_ok h with ⟨-, hnone⟩ | ⟨directive, -, hscope, hsettled, h⟩
  · cases hnone
  · exact directive_accepts hnested hscope hsettled h

/-- The induction is on the nesting of tags. -/
theorem build_accepts (tag : Tag) : c.BuildsAccepted (c.build tag) := by
  have hnothing : c.BuildsAccepted fun _ _ _ => .ok none := by
    intro scope target around rule h
    cases h
  induction tag with
  | bare head => exact step_accepts hnothing
  | valued head value => exact step_accepts hnothing
  | composed head inner ih => exact step_accepts ih

/-- A tag that is a rule by itself is built into its constraint. -/
theorem build_simple {tag : Tag} {name : SimpleTag} {built : Option Rule}
    (hname : Directive.ofName? tag.name = some (.simple name))
    (h : c.build tag scope target around = .ok built) :
    ∃ constraint, c.constraint tag target around name = .ok constraint ∧
      built = some (.leaf constraint tag.raw) := by
  have hstep (nested : Builder) (h : c.step tag nested scope target around = .ok built) :
      ∃ constraint, c.constraint tag target around name = .ok constraint ∧
        built = some (.leaf constraint tag.raw) := by
    rcases step_eq_ok h with ⟨hnone, -⟩ | ⟨directive, hdirective, -, -, h⟩
    · cases hname.symm.trans hnone
    · cases hname.symm.trans hdirective
      simp only [Compiler.directive, bind_succeeds_iff, pure_succeeds_iff] at h
      obtain ⟨constraint, hbuilt, rfl⟩ := h
      exact ⟨constraint, hbuilt, rfl⟩
  cases tag with
  | bare | valued | composed => exact hstep _ h

/-! ## The rules of one place -/

/-- The tags are built into these rules, which need not go together. -/
def BuildsRules (c : Compiler) (tags : List Tag) (scope : Scope) (target : TypeRef)
    (around : Surroundings) (rules : List Rule) : Prop :=
  ∃ built, (tags.filter c.compiles).mapM (fun tag => c.build tag scope target around) = .ok built ∧
    rules = built.filterMap id

/-- The rules of a place are what its tags are built into, if these go together. -/
theorem rules_eq_ok_iff {tags : List Tag} {rules : List Rule} :
    c.rules tags scope target around = .ok rules ↔
      c.BuildsRules tags scope target around rules ∧ check rules = .ok () := by
  simp only [Compiler.rules, bind_succeeds_iff, pure_succeeds_iff]
  constructor
  · rintro ⟨built, hbuilt, ⟨⟩, hcheck, rfl⟩
    exact ⟨⟨built, hbuilt, rfl⟩, hcheck⟩
  · rintro ⟨⟨built, hbuilt, rfl⟩, hcheck⟩
    exact ⟨built, hbuilt, (), hcheck, rfl⟩

theorem buildsRules_of_rules {tags : List Tag} {rules : List Rule}
    (h : c.rules tags scope target around = .ok rules) :
    c.BuildsRules tags scope target around rules :=
  (rules_eq_ok_iff.mp h).1

theorem buildsRules_append_iff {first second : List Tag} {rules : List Rule} :
    c.BuildsRules (first ++ second) scope target around rules ↔
      ∃ rules₁ rules₂, c.BuildsRules first scope target around rules₁ ∧
        c.BuildsRules second scope target around rules₂ ∧ rules = rules₁ ++ rules₂ := by
  simp only [BuildsRules, List.filter_append, List.mapM_append, bind_succeeds_iff,
    pure_succeeds_iff]
  constructor
  · rintro ⟨_, ⟨built₁, hbuilt₁, built₂, hbuilt₂, rfl⟩, rfl⟩
    exact ⟨_, _, ⟨built₁, hbuilt₁, rfl⟩, ⟨built₂, hbuilt₂, rfl⟩, List.filterMap_append⟩
  · rintro ⟨_, _, ⟨built₁, hbuilt₁, rfl⟩, ⟨built₂, hbuilt₂, rfl⟩, rfl⟩
    exact ⟨_, ⟨built₁, hbuilt₁, built₂, hbuilt₂, rfl⟩, List.filterMap_append.symm⟩

/-- A tag that is compiled is built into at most one rule. -/
theorem buildsRules_singleton_iff {tag : Tag} {rules : List Rule}
    (hcompiles : c.compiles tag = true) :
    c.BuildsRules [tag] scope target around rules ↔
      ∃ built, c.build tag scope target around = .ok built ∧ rules = built.toList := by
  simp only [BuildsRules, List.filter_singleton, hcompiles, cond_true, mapM_succeeds_iff,
    List.forall₂_cons_left_iff, List.forall₂_nil_left_iff]
  constructor
  · rintro ⟨_, ⟨built, _, hbuilt, rfl, rfl⟩, rfl⟩
    exact ⟨built, hbuilt, by cases built <;> rfl⟩
  · rintro ⟨built, hbuilt, rfl⟩
    exact ⟨[built], ⟨built, [], hbuilt, rfl, rfl⟩, by cases built <;> rfl⟩

theorem buildsRules_nil_iff {rules : List Rule} :
    c.BuildsRules [] scope target around rules ↔ rules = [] := by
  constructor
  · rintro ⟨_, ⟨⟩, rfl⟩
    rfl
  · rintro rfl
    exact ⟨[], rfl, rfl⟩

theorem buildsRules_cons_iff {tag : Tag} {tags : List Tag} {rules : List Rule}
    (hcompiles : c.compiles tag = true) :
    c.BuildsRules (tag :: tags) scope target around rules ↔
      ∃ built others, c.build tag scope target around = .ok built ∧
        c.BuildsRules tags scope target around others ∧ rules = built.toList ++ others := by
  rw [← List.singleton_append, buildsRules_append_iff]
  simp only [buildsRules_singleton_iff hcompiles]
  constructor
  · rintro ⟨_, others, ⟨built, hbuilt, rfl⟩, hothers, rfl⟩
    exact ⟨built, others, hbuilt, hothers, rfl⟩
  · rintro ⟨built, others, hbuilt, hothers, rfl⟩
    exact ⟨_, others, ⟨built, hbuilt, rfl⟩, hothers, rfl⟩

/-- The tags in these lines that are compiled. -/
def compiledTags (c : Compiler) (scope : Scope) (lines : List String) : List Tag :=
  match Tag.parseLines scope lines with
  | .ok tags => tags.filter c.compiles
  | .error _ => []

theorem compiledTags_of_parseLines {lines : List String} {tags : List Tag}
    (h : Tag.parseLines scope lines = .ok tags) :
    c.compiledTags scope lines = tags.filter c.compiles := by
  rw [compiledTags, h]

theorem compiles_of_mem_compiledTags {lines : List String} {tag : Tag}
    (h : tag ∈ c.compiledTags scope lines) : c.compiles tag = true := by
  rw [compiledTags] at h
  split at h
  next => exact List.of_mem_filter h
  next => cases h

theorem buildsRules_filter_compiles {tags : List Tag} {rules : List Rule} :
    c.BuildsRules (tags.filter c.compiles) scope target around rules ↔
      c.BuildsRules tags scope target around rules := by
  simp only [BuildsRules, List.filter_filter, Bool.and_self]

theorem rules_accepts {tags : List Tag} {rules : List Rule}
    (h : c.rules tags scope target around = .ok rules) (hrule : rule ∈ rules) :
    c.Accepts scope target around rule := by
  obtain ⟨built, hbuilt, rfl⟩ := buildsRules_of_rules h
  obtain ⟨_, hmem, rfl⟩ := List.mem_filterMap.mp hrule
  obtain ⟨tag, -, htag⟩ := exists_input_of_mapM hbuilt hmem
  exact build_accepts tag scope target around rule htag

theorem fieldRules_accepts {field : FieldDef} {rules : List Rule}
    (h : c.fieldRules field = .ok rules) (hrule : rule ∈ rules) :
    c.Accepts .field field.type ⟨false, some field.name⟩ rule := by
  rw [fieldRules, bind_succeeds_iff] at h
  obtain ⟨tags, -, h⟩ := h
  exact rules_accepts h hrule

theorem typeRules_accepts {type : TypeDef} {rules : List Rule}
    (h : c.typeRules type = .ok rules) (hrule : rule ∈ rules) :
    c.Accepts .type (.named type.name) .none rule := by
  rw [typeRules, bind_succeeds_iff] at h
  obtain ⟨tags, -, h⟩ := h
  exact rules_accepts h hrule

theorem firstWritten_eq_none_iff {tags : List SimpleTag} {rules : List Rule} :
    firstWritten tags rules = none ↔
      hasConstraint rules (fun constraint => tags.contains constraint.tag) = false := by
  rw [firstWritten, hasConstraint, List.find?_eq_none, List.any_eq_false]

/-- Presence rules occur once and do not contradict each other, and rules of a native field are
stable, at every depth. -/
theorem check_eq_ok_iff {rules : List Rule} :
    check rules = .ok () ↔ firstRepeated [] rules = none ∧
      (hasConstraint rules (fun constraint => [.required].contains constraint.tag) = false ∨
        hasConstraint rules (fun constraint => [.optional, .forbidden].contains constraint.tag) =
          false) ∧
      (hasConstraint rules (fun constraint => constraint.tag == .declarativeValidationNative) =
        true → ∀ rule ∈ rules, ∀ part ∈ rule.all, part.stability = .stable) := by
  have hstable : firstUnstable rules = none ↔
      ∀ rule ∈ rules, ∀ part ∈ rule.all, part.stability = .stable := by
    simp [firstUnstable]
  rw [← hstable, ← firstWritten_eq_none_iff, ← firstWritten_eq_none_iff, check]
  cases firstRepeated [] rules with
  | some tag => simp
  | none =>
    cases firstWritten [.required] rules with
    | none => cases firstUnstable rules <;> simp
    | some required =>
      cases firstWritten [.optional, .forbidden] rules with
      | none => cases firstUnstable rules <;> simp
      | some other => simp

/-! ## Types of composed rules -/

theorem struct_eq_ok {tag : Tag} {type : TypeDef} (h : c.struct tag target = .ok type) :
    ∃ resolved name, c.resolve target = .ok resolved ∧ resolved.shape = .struct name ∧
      c.types.get? name = some type := by
  rw [Compiler.struct, bind_succeeds_iff] at h
  obtain ⟨resolved, hresolve, h⟩ := h
  simp only at h
  split at h
  next => cases h
  next name hname =>
    split at h
    next found hfound =>
      cases h
      refine ⟨resolved, name, hresolve, ?_, hfound⟩
      cases hshape : resolved.shape with
      | struct name' =>
        rw [hshape] at hname
        cases hname
        rfl
      | _ =>
        rw [hshape] at hname
        cases hname
    next => cases h

theorem element_eq_ok {tag : Tag} {element : TypeRef} (h : c.element tag target = .ok element) :
    ∃ resolved, c.resolve target = .ok resolved ∧ resolved.shape = .slice element := by
  rw [Compiler.element, bind_succeeds_iff] at h
  obtain ⟨resolved, hresolve, h⟩ := h
  split at h
  next element hshape =>
    cases h
    exact ⟨resolved, hresolve, hshape⟩
  next => cases h

/-- The rule under its conditions is accepted at the same place. -/
theorem Accepts.resolve {gates : GateView} {active : Rule} (h : c.Accepts scope target around rule)
    (hactive : rule.resolve gates = some active) :
    ∃ around', c.Accepts scope target around' active := by
  induction h with
  | guarded hgate hinner ih =>
    rw [Rule.resolve, Option.ite_none_right_eq_some] at hactive
    exact ih hactive.2
  | leaf hscope hsettled hbuilt =>
    cases hactive
    exact ⟨_, .leaf hscope hsettled hbuilt⟩
  | element hresolve hshape hinner =>
    cases hactive
    exact ⟨_, .element hresolve hshape hinner⟩
  | entry hresolve hshape hinner =>
    cases hactive
    exact ⟨_, .entry hresolve hshape hinner⟩
  | key hresolve hshape hinner =>
    cases hactive
    exact ⟨_, .key hresolve hshape hinner⟩
  | subfield hstruct hfield hinner =>
    cases hactive
    exact ⟨_, .subfield hstruct hfield hinner⟩
  | item hstruct helement hselects hkeys hinner =>
    cases hactive
    exact ⟨_, .item hstruct helement hselects hkeys hinner⟩

/-- Whatever the surroundings and the type, the rule is accepted in this scope. -/
def AcceptsIn (c : Compiler) (scope : Scope) (rule : Rule) : Prop :=
  ∃ target around, c.Accepts scope target around rule

theorem AcceptsIn.resolve {gates : GateView} {active : Rule} (h : c.AcceptsIn scope rule)
    (hactive : rule.resolve gates = some active) : c.AcceptsIn scope active := by
  obtain ⟨target, around, h⟩ := h
  obtain ⟨around', h'⟩ := h.resolve hactive
  exact ⟨target, around', h'⟩

/-- The scope of elements, values and keys is never that of fields. -/
theorem AcceptsIn.inner {place : Place} {tag : String}
    (h : c.AcceptsIn scope (.within place rule tag)) :
    ∃ innerScope, c.AcceptsIn innerScope rule ∧ (place.isEach = true → innerScope ≠ .field) := by
  obtain ⟨target, around, h⟩ := h
  cases h with
  | element _ _ hinner => exact ⟨_, ⟨_, _, hinner⟩, nofun⟩
  | entry _ _ hinner => exact ⟨_, ⟨_, _, hinner⟩, nofun⟩
  | key _ _ hinner => exact ⟨_, ⟨_, _, hinner⟩, nofun⟩
  | subfield _ _ hinner => exact ⟨_, ⟨_, _, hinner⟩, nofun⟩
  | item _ _ _ _ hinner => exact ⟨_, ⟨_, _, hinner⟩, nofun⟩

/-! ## Constraints and their tags -/

theorem differs_eq_ok {tag : Tag} {constraint : Constraint}
    (h : c.differs tag target = .ok constraint) : ∃ value, constraint = .differs value := by
  rw [Compiler.differs, bind_succeeds_iff] at h
  obtain ⟨resolved, -, h⟩ := h
  split at h
  next kind _ =>
    split at h
    next => cases h
    next literal _ =>
      split at h
      next value _ =>
        cases h
        exact ⟨value, rfl⟩
      next => cases h
  next => cases h

/-- Exclusions do not depend on the types. -/
theorem exclusion_types (types types' : Universe) (options : Options) :
    Compiler.exclusion ⟨types', options⟩ = Compiler.exclusion ⟨types, options⟩ := by
  funext tag
  induction tag with
  | bare head | valued head value => rfl
  | composed head inner ih =>
    simp only [exclusion, ih]
    rfl

/-- The exclusion is one that is built from the tag. -/
inductive Excludes (c : Compiler) : Tag → Exclusion → Prop where
  | always {tag : Tag} {constraint : Constraint}
      (hname : Directive.ofName? tag.name = some (.simple .enumExclude))
      (hmarker : tag.marker .enumExclude = .ok constraint) : Excludes c tag (.always tag.raw)
  | guarded {head : Tag.Head} {nested : Tag} {polarity : Bool} {gate : String} {inner : Exclusion}
      (hname : Directive.ofName? head.name = some (.conditional polarity))
      (hgate : c.gate (.composed head nested) = .ok gate) (hinner : Excludes c nested inner) :
      Excludes c (.composed head nested) (.guarded (condition polarity gate) inner head.raw)

theorem exclusion_excludes {tag : Tag} {exclusion : Exclusion}
    (h : c.exclusion tag = .ok (some exclusion)) : c.Excludes tag exclusion := by
  have hunknown (tag : Tag) (exclusion : Exclusion) : c.unknown tag ≠ .ok (some exclusion) := by
    rw [unknown]
    split <;> nofun
  induction tag generalizing exclusion with
  | composed head nested ih =>
    simp only [Compiler.exclusion] at h
    split at h
    next => exact absurd h (hunknown _ _)
    next hname =>
      simp only [bind_succeeds_iff, pure_succeeds_iff, Option.some.injEq] at h
      obtain ⟨_, hmarker, rfl⟩ := h
      exact .always hname hmarker
    next polarity hname =>
      simp only [bind_succeeds_iff] at h
      obtain ⟨gate, hgate, -, -, inner, hinner, h⟩ := h
      split at h
      next inner =>
        cases h
        exact .guarded hname hgate (ih hinner)
      next => cases h
    next => cases h
  | bare head | valued head value =>
    simp only [Compiler.exclusion] at h
    split at h
    next => exact absurd h (hunknown _ _)
    next hname =>
      simp only [bind_succeeds_iff, pure_succeeds_iff, Option.some.injEq] at h
      obtain ⟨_, hmarker, rfl⟩ := h
      exact .always hname hmarker
    next =>
      rw [bind_succeeds_iff] at h
      obtain ⟨-, -, h⟩ := h
      cases h
    next => cases h

/-- An enumeration is one of the constants of an alias of a string. -/
theorem enumeration_eq_ok {tag : Tag} {constraint : Constraint}
    (h : c.enumeration tag target = .ok constraint) :
    ∃ name type underlying constants resolved members, target = .named name ∧
      c.types.get? name = some type ∧ type.body = .alias underlying constants ∧
      c.resolve underlying = .ok resolved ∧ resolved.shape.isString = true ∧
      constants.mapM c.enumMember = .ok members ∧ constraint = .enumeration members := by
  simp only [Compiler.enumeration] at h
  split at h
  next => cases h
  next =>
    split at h
    next name =>
      split at h
      next => cases h
      next type htype =>
        split at h
        next => cases h
        next underlying constants hbody =>
          rw [bind_succeeds_iff] at h
          obtain ⟨resolved, hresolve, h⟩ := h
          split at h
          next hstring =>
            simp only [bind_succeeds_iff, pure_succeeds_iff] at h
            obtain ⟨members, hmembers, rfl⟩ := h
            exact ⟨name, type, underlying, constants, resolved, members, rfl, htype, hbody,
              hresolve, hstring, hmembers, rfl⟩
          next => cases h
    next => cases h

/-- A tag is built into the constraint that is written by it. -/
theorem constraint_tag {tag : Tag} {name : SimpleTag} {constraint : Constraint}
    (h : c.constraint tag target around name = .ok constraint) : constraint.tag = name := by
  have hmarker {marked : Constraint} (h : tag.marker marked = .ok constraint) :
      constraint = marked := by
    rw [Tag.marker] at h
    split at h
    · cases h
    · split at h
      · cases h
      · cases h
        rfl
  cases name with
  | required | optional | forbidden | immutable | opaqueType | declarativeValidationNative
  | enumExclude => rw [hmarker h]; rfl
  | update =>
    simp only [Compiler.constraint, bind_succeeds_iff, pure_succeeds_iff] at h
    obtain ⟨-, -, rfl⟩ := h
    rfl
  | minimum | maxLength | maxItems | maxProperties | format =>
    simp only [Compiler.constraint, bind_succeeds_iff, pure_succeeds_iff] at h
    obtain ⟨-, -, -, -, rfl⟩ := h
    rfl
  | unionDiscriminator | unionMember | zeroOrOneOfMember | listMapKey =>
    simp only [Compiler.constraint, bind_succeeds_iff, pure_succeeds_iff] at h
    obtain ⟨-, -, -, -, -, -, rfl⟩ := h
    rfl
  | customUnique =>
    simp only [Compiler.constraint, bind_succeeds_iff] at h
    obtain ⟨-, -, h⟩ := h
    rw [hmarker h]
    rfl
  | listType | unique =>
    simp only [Compiler.constraint, bind_succeeds_iff] at h
    obtain ⟨word, -, h⟩ := h
    split at h
    · simp only [bind_succeeds_iff, pure_succeeds_iff] at h
      obtain ⟨-, -, rfl⟩ := h
      rfl
    · simp only [bind_succeeds_iff, pure_succeeds_iff] at h
      obtain ⟨-, -, rfl⟩ := h
      rfl
  | neq =>
    obtain ⟨value, rfl⟩ := differs_eq_ok h
    rfl
  | enum =>
    obtain ⟨_, _, _, _, _, members, -, -, -, -, -, -, rfl⟩ := enumeration_eq_ok h
    rfl

/-- A constraint stands only where its tag may. -/
theorem AcceptsIn.scope_mem {constraint : Constraint} {tag : String}
    (h : c.AcceptsIn scope (.leaf constraint tag)) : scope ∈ constraint.tag.scopes := by
  obtain ⟨target, around, h⟩ := h
  cases h with
  | leaf hscope hsettled hbuilt =>
    rw [constraint_tag hbuilt]
    exact hscope

end TaggedSchema.Compiler
