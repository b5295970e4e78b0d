import TaggedSchema.Proofs.Rule.Accepted
import TaggedSchema.Proofs.Tag.Scopes
import TaggedSchema.Proofs.Universe.Inlining

/-!
# Rules without an alias

A tag that is built at a reference and at one that may stand in its place is built into the same
rule. Only the constants of an enumeration and the names of union members depend on where a tag is
attached.
-/

namespace TaggedSchema

/-- Whether the constraint is the same wherever its tag is attached. -/
def Constraint.isPortable (constraint : Constraint) : Bool :=
  constraint.tag != .enum && !constraint.isUnionMarker

/-- Whether all constraints of the rule are portable, at every depth. -/
def Rule.isPortable : Rule → Bool
  | leaf constraint _ => constraint.isPortable
  | within _ inner _ => inner.isPortable
  | guarded _ inner _ => inner.isPortable

namespace Compiler

variable {types : Universe} {options : Options} {a : AliasField types}
variable {tag : Tag} {scope scope' : Scope} {target target' : TypeRef}
variable {around around' : Surroundings} {built built' : Option Rule}

/-! ## Targets -/

theorem shape_inlined {resolved resolved' : Resolved} (hstands : a.Stands target target')
    (h : Compiler.resolve ⟨types, options⟩ target = .ok resolved)
    (h' : Compiler.resolve ⟨a.inlined, options⟩ target' = .ok resolved') :
    resolved'.shape = resolved.shape :=
  hstands.shape (mapError_succeeds_iff.mp h) (mapError_succeeds_iff.mp h')

theorem element_inlined {element element' : TypeRef} (hstands : a.Stands target target')
    (h : Compiler.element ⟨types, options⟩ tag target = .ok element)
    (h' : Compiler.element ⟨a.inlined, options⟩ tag target' = .ok element') :
    element' = element := by
  obtain ⟨resolved, hresolve, hshape⟩ := element_eq_ok h
  obtain ⟨resolved', hresolve', hshape'⟩ := element_eq_ok h'
  rw [shape_inlined hstands hresolve hresolve', hshape] at hshape'
  cases hshape'
  rfl

theorem struct_inlined {type type' : TypeDef} (hstands : a.Stands target target')
    (h : Compiler.struct ⟨types, options⟩ tag target = .ok type)
    (h' : Compiler.struct ⟨a.inlined, options⟩ tag target' = .ok type') :
    ∃ name, types.get? name = some type ∧ type' = a.replace type := by
  obtain ⟨resolved, name, hresolve, hshape, hget⟩ := struct_eq_ok h
  obtain ⟨resolved', name', hresolve', hshape', hget'⟩ := struct_eq_ok h'
  rw [shape_inlined hstands hresolve hresolve', hshape] at hshape'
  cases hshape'
  rw [a.inlined_get?, hget] at hget'
  exact ⟨name, hget, (Option.some.inj hget').symm⟩

theorem fieldOf_inlined {type type' : TypeDef} {jsonName : String} {field field' : FieldDef}
    (hstands : a.Stands target target')
    (hstruct : Compiler.struct ⟨types, options⟩ tag target = .ok type)
    (hstruct' : Compiler.struct ⟨a.inlined, options⟩ tag target' = .ok type')
    (h : fieldOf tag type jsonName = .ok field) (h' : fieldOf tag type' jsonName = .ok field') :
    a.Replaces field field' := by
  obtain ⟨name, hget, rfl⟩ := struct_inlined hstands hstruct hstruct'
  have hfields := a.replace_field? hget jsonName
  rw [fieldOf_eq_ok h, fieldOf_eq_ok h'] at hfields
  cases hfields with
  | some hfield => exact hfield

/-! ## Constraints -/

theorem enumMember_inlined :
    Compiler.enumMember ⟨a.inlined, options⟩ = Compiler.enumMember ⟨types, options⟩ := by
  funext constant
  rw [enumMember, enumMember, exclusion_types types]
  rfl

theorem resolve_inlined (ref : TypeRef) :
    Compiler.resolve ⟨a.inlined, options⟩ ref = Compiler.resolve ⟨types, options⟩ ref :=
  congrArg (Except.mapError BuildError.type) (a.resolve_inlined ref)

theorem enumeration_inlined :
    Compiler.enumeration ⟨a.inlined, options⟩ tag target =
      Compiler.enumeration ⟨types, options⟩ tag target := by
  cases target with
  | named name =>
    simp only [Compiler.enumeration, a.inlined_get?, resolve_inlined, enumMember_inlined]
    cases hget : types.get? name with
    | none => rfl
    | some type =>
      simp only [Option.map_some]
      cases hbody : type.body with
      | struct fields =>
        obtain ⟨fields', hbody', -⟩ := a.replace_of_struct hget hbody
        rw [hbody']
      | _ => rw [a.replace_of_alias hget hbody, hbody]
  | _ => rfl

theorem differs_inlined {constraint constraint' : Constraint} (hstands : a.Stands target target')
    (h : Compiler.differs ⟨types, options⟩ tag target = .ok constraint)
    (h' : Compiler.differs ⟨a.inlined, options⟩ tag target' = .ok constraint') :
    constraint' = constraint := by
  rw [Compiler.differs, bind_succeeds_iff] at h h'
  obtain ⟨resolved, hresolve, h⟩ := h
  obtain ⟨resolved', hresolve', h'⟩ := h'
  rw [shape_inlined hstands hresolve hresolve'] at h'
  exact Except.ok.inj (h'.symm.trans h)

theorem constraint_inlined {name : SimpleTag} {constraint constraint' : Constraint}
    (hstands : a.Stands target target')
    (hplace : around'.memberName = around.memberName ∧ (target' = target ∨ name ≠ .enum) ∨
      constraint.isPortable = true)
    (h : Compiler.constraint ⟨types, options⟩ tag target around name = .ok constraint)
    (h' : Compiler.constraint ⟨a.inlined, options⟩ tag target' around' name = .ok constraint') :
    constraint' = constraint := by
  have hmember (hmarker : constraint.isUnionMarker = true) :
      tag.memberName around' = tag.memberName around := by
    rcases hplace with ⟨hname, -⟩ | hportable
    · rw [Tag.memberName, Tag.memberName, hname]
    · rw [Constraint.isPortable, hmarker, Bool.not_true, Bool.and_false] at hportable
      cases hportable
  cases name with
  | required | optional | forbidden | immutable | opaqueType | declarativeValidationNative
  | enumExclude | update => exact Except.ok.inj (h'.symm.trans h)
  | minimum | maxLength | maxItems | maxProperties | format | customUnique =>
    rw [Compiler.constraint, bind_succeeds_iff] at h h'
    obtain ⟨-, -, h⟩ := h
    obtain ⟨-, -, h'⟩ := h'
    exact Except.ok.inj (h'.symm.trans h)
  | neq => exact differs_inlined hstands h h'
  | enum =>
    have hsame : target' = target := by
      rcases hplace with ⟨-, hsame | hname⟩ | hportable
      · exact hsame
      · exact absurd rfl hname
      · rw [Constraint.isPortable, constraint_tag h] at hportable
        cases hportable
    rw [hsame] at h'
    exact Except.ok.inj ((h'.symm.trans enumeration_inlined).trans h)
  | listType | unique =>
    simp only [Compiler.constraint, bind_succeeds_iff] at h h'
    obtain ⟨word, hword, h⟩ := h
    obtain ⟨word', hword', h'⟩ := h'
    cases hword.symm.trans hword'
    split at h
    next hmap =>
      simp only [if_pos hmap, bind_succeeds_iff, pure_succeeds_iff] at h h'
      obtain ⟨-, -, rfl⟩ := h
      obtain ⟨-, -, rfl⟩ := h'
      rfl
    next hmap =>
      simp only [if_neg hmap, bind_succeeds_iff, pure_succeeds_iff] at h h'
      obtain ⟨-, -, rfl⟩ := h
      obtain ⟨-, -, rfl⟩ := h'
      rfl
  | listMapKey =>
    simp only [Compiler.constraint, bind_succeeds_iff, pure_succeeds_iff] at h h'
    obtain ⟨-, -, key, hkey, -, -, rfl⟩ := h
    obtain ⟨-, -, key', hkey', -, -, rfl⟩ := h'
    cases hkey.symm.trans hkey'
    rfl
  | unionMember | zeroOrOneOfMember =>
    simp only [Compiler.constraint, bind_succeeds_iff, pure_succeeds_iff] at h h'
    obtain ⟨-, -, member, hmember₁, union, hunion, rfl⟩ := h
    obtain ⟨-, -, member', hmember₂, union', hunion', rfl⟩ := h'
    rw [hmember rfl] at hmember₂
    cases hmember₁.symm.trans hmember₂
    cases hunion.symm.trans hunion'
    rfl
  | unionDiscriminator =>
    simp only [Compiler.constraint, bind_succeeds_iff, pure_succeeds_iff] at h h'
    obtain ⟨-, -, -, -, union, hunion, rfl⟩ := h
    obtain ⟨-, -, -, -, union', hunion', rfl⟩ := h'
    cases hunion.symm.trans hunion'
    rfl

/-! ## Tags -/

/-- What an enumeration or a member of a union takes from where its tag is attached is the same. -/
def SamePlace (scope : Scope) (target target' : TypeRef) (around around' : Surroundings) : Prop :=
  around'.memberName = around.memberName ∧ (target' = target ∨ scope ≠ .type)

/-- Two builders build the same rule at references of which one may stand in the place of the other,
where the rule is portable or the places agree. -/
def BuildsAlike (a : AliasField types) (build build' : Builder) : Prop :=
  ∀ scope scope' target target' around around' built built', a.Stands target target' →
    (SamePlace scope target target' around around' ∨ built.all Rule.isPortable = true) →
    build scope target around = .ok built → build' scope' target' around' = .ok built' →
    built' = built

theorem wrapped_inlined {nested nested' : Builder} (hnested : BuildsAlike a nested nested')
    {c c' : Compiler} {wrap : Rule → Rule}
    (h : c.wrapped tag nested scope target around wrap = .ok built)
    (h' : c'.wrapped tag nested' scope' target' around' wrap = .ok built')
    (hwrap : ∀ rule, (wrap rule).isPortable = rule.isPortable) (hstands : a.Stands target target')
    (hplace : SamePlace scope target target' around around' ∨
      built.all Rule.isPortable = true) : built' = built := by
  obtain ⟨inner, hinner, rfl⟩ := wrapped_eq_ok h
  obtain ⟨inner', hinner', rfl⟩ := wrapped_eq_ok h'
  -- A rule is portable exactly if the rule inside it is.
  have hportable : (inner.map wrap).all Rule.isPortable = inner.all Rule.isPortable := by
    cases inner with
    | none => rfl
    | some rule => exact hwrap rule
  rw [hportable] at hplace
  rw [hnested _ _ _ _ _ _ _ _ hstands hplace hinner hinner']

theorem selectorKey_agree {type type' : TypeDef} {argument : Argument} {key key' : String × Value}
    (h : selectorKey tag type argument = .ok key) (h' : selectorKey tag type' argument = .ok key') :
    key' = key := by
  rw [selectorKey] at h h'
  split at h
  next => cases h
  next name hname =>
    simp only [hname, bind_succeeds_iff, pure_succeeds_iff] at h h'
    obtain ⟨-, -, rfl⟩ := h
    obtain ⟨-, -, rfl⟩ := h'
    rfl

theorem directive_inlined {nested nested' : Builder} (hnested : BuildsAlike a nested nested')
    {directive : Directive} (hscope : scope ∈ directive.scopes) (hstands : a.Stands target target')
    (hplace : SamePlace scope target target' around around' ∨
      built.all Rule.isPortable = true)
    (h : Compiler.directive ⟨types, options⟩ tag nested scope target around directive = .ok built)
    (h' : Compiler.directive ⟨a.inlined, options⟩ tag nested' scope' target' around' directive =
      .ok built') : built' = built := by
  -- Elements, values and keys are of the same reference.
  have hinside {inner : Scope} {ref : TypeRef} :
      SamePlace inner ref ref around around' ∨ built.all Rule.isPortable = true :=
    hplace.imp_left fun hplace => ⟨hplace.1, .inl rfl⟩
  cases directive with
  | simple name =>
    rw [Compiler.directive, bind_succeeds_iff] at h h'
    obtain ⟨constraint, hbuilt, h⟩ := h
    obtain ⟨constraint', hbuilt', h'⟩ := h'
    cases h
    cases h'
    have henum (hscope' : scope ≠ .type) : name ≠ .enum := by
      rintro rfl
      exact hscope' (List.mem_singleton.mp hscope)
    rw [constraint_inlined hstands
      (hplace.imp_left fun hplace => And.imp_right (Or.imp_right henum) hplace) hbuilt hbuilt']
  | eachVal =>
    rw [Compiler.directive, bind_succeeds_iff] at h h'
    obtain ⟨resolved, hresolve, h⟩ := h
    obtain ⟨resolved', hresolve', h'⟩ := h'
    rw [shape_inlined hstands hresolve hresolve'] at h'
    split at h
    next element hshape =>
      simp only [hshape] at h'
      exact wrapped_inlined hnested h h' (fun _ => rfl) (.same element) hinside
    next key value hshape =>
      simp only [hshape] at h'
      exact wrapped_inlined hnested h h' (fun _ => rfl) (.same value) hinside
    next => cases h
  | eachKey =>
    rw [Compiler.directive, bind_succeeds_iff] at h h'
    obtain ⟨resolved, hresolve, h⟩ := h
    obtain ⟨resolved', hresolve', h'⟩ := h'
    rw [shape_inlined hstands hresolve hresolve'] at h'
    split at h
    next key value hshape =>
      simp only [hshape] at h'
      exact wrapped_inlined hnested h h' (fun _ => rfl) (.same key) hinside
    next => cases h
  | subfield =>
    rw [Compiler.directive, bind_succeeds_iff] at h h'
    obtain ⟨type, hstruct, h⟩ := h
    obtain ⟨type', hstruct', h'⟩ := h'
    split at h
    next => cases h
    next jsonName hname =>
      simp only [hname] at h'
      rw [bind_succeeds_iff] at h h'
      obtain ⟨field, hfield, h⟩ := h
      obtain ⟨field', hfield', h'⟩ := h'
      have hreplaces := fieldOf_inlined hstands hstruct hstruct' hfield hfield'
      exact wrapped_inlined hnested h h' (fun _ => rfl) hreplaces.type
        (.inl ⟨congrArg some hreplaces.name, .inr (by decide)⟩)
  | item =>
    simp only [Compiler.directive, bind_succeeds_iff] at h h'
    obtain ⟨type, -, element, helement, h⟩ := h
    obtain ⟨type', -, element', helement', h'⟩ := h'
    cases element_inlined hstands helement helement'
    split at h
    next => cases h
    next harguments =>
      rw [if_neg harguments] at h'
      simp only [bind_succeeds_iff] at h h'
      obtain ⟨keys, hkeys, h⟩ := h
      obtain ⟨keys', hkeys', h'⟩ := h'
      cases mapM_agree hkeys hkeys' fun _ _ _ _ => selectorKey_agree
      exact wrapped_inlined hnested h h' (fun _ => rfl) (.same element) (.inl ⟨rfl, .inl rfl⟩)
  | conditional polarity =>
    rw [Compiler.directive, bind_succeeds_iff] at h h'
    obtain ⟨gate, hgate, h⟩ := h
    obtain ⟨gate', hgate', h'⟩ := h'
    cases Except.ok.inj (hgate'.symm.trans hgate)
    exact wrapped_inlined hnested h h' (fun _ => rfl) hstands hplace

theorem step_inlined {nested nested' : Builder} (hnested : BuildsAlike a nested nested') :
    BuildsAlike a (Compiler.step ⟨types, options⟩ tag nested)
      (Compiler.step ⟨a.inlined, options⟩ tag nested') := by
  intro scope scope' target target' around around' built built' hstands hplace h h'
  rw [step] at h h'
  split at h
  next hname =>
    simp only [hname] at h'
    exact Except.ok.inj (h'.symm.trans h)
  next directive hname =>
    simp only [hname] at h'
    split at h
    next => cases h
    next hscope =>
      split at h
      next => cases h
      next hsettled =>
        split at h'
        next => cases h'
        next =>
          split at h'
          next => cases h'
          next =>
            refine directive_inlined hnested ?_ hstands hplace h h'
            simpa using hscope

/-- The induction is on the nesting of tags. -/
theorem build_inlined (tag : Tag) :
    BuildsAlike a (Compiler.build ⟨types, options⟩ tag)
      (Compiler.build ⟨a.inlined, options⟩ tag) := by
  have hnothing : BuildsAlike a (fun _ _ _ => .ok none) fun _ _ _ => .ok none := by
    intro _ _ _ _ _ _ built built' _ _ h h'
    exact Except.ok.inj (h'.symm.trans h)
  induction tag with
  | bare head => exact step_inlined hnothing
  | valued head value => exact step_inlined hnothing
  | composed head inner ih => exact step_inlined ih

/-! ## The rules of one place -/

variable {tags : List Tag} {rules rules' : List Rule}

theorem buildsRules_withScope {c : Compiler} {s : Scope}
    (h : c.BuildsRules (tags.map (Tag.withScope s)) scope target around rules) :
    c.BuildsRules tags scope target around rules := by
  obtain ⟨built, hbuilt, rfl⟩ := h
  refine ⟨built, ?_, rfl⟩
  have hcompiles : c.compiles ∘ Tag.withScope s = c.compiles :=
    funext fun tag => c.compiles_withScope tag s
  rw [List.filter_map, hcompiles, mapM_succeeds_iff, List.forall₂_map_left_iff] at hbuilt
  rw [mapM_succeeds_iff]
  refine hbuilt.imp fun tag output houtput => ?_
  rwa [build_withScope] at houtput

theorem BuildsRules.inlined (hstands : a.Stands target target')
    (hplace : SamePlace scope target target' around around' ∨
      ∀ rule ∈ rules, rule.isPortable = true)
    (h : Compiler.BuildsRules ⟨types, options⟩ tags scope target around rules)
    (h' : Compiler.BuildsRules ⟨a.inlined, options⟩ tags scope' target' around' rules') :
    rules' = rules := by
  obtain ⟨built, hbuilt, rfl⟩ := h
  obtain ⟨built', hbuilt', rfl⟩ := h'
  suffices hsame : built' = built by rw [hsame]
  refine mapM_agree hbuilt hbuilt' fun tag output houtput output' hbuild hbuild' => ?_
  refine build_inlined tag _ _ _ _ _ _ _ _ hstands (hplace.imp_right fun hportable => ?_) hbuild
    hbuild'
  cases output with
  | none => rfl
  | some rule => exact hportable rule (List.mem_filterMap.mpr ⟨_, houtput, rfl⟩)

theorem typeRules_inlined {name : String} {type : TypeDef} (htype : types.get? name = some type)
    (h : Compiler.typeRules ⟨types, options⟩ type = .ok rules)
    (h' : Compiler.typeRules ⟨a.inlined, options⟩ (a.replace type) = .ok rules') :
    rules' = rules := by
  rw [typeRules, bind_succeeds_iff] at h h'
  rw [a.replace_tags htype, a.replace_name] at h'
  obtain ⟨tags, htags, h⟩ := h
  obtain ⟨tags', htags', h'⟩ := h'
  cases htags.symm.trans htags'
  exact BuildsRules.inlined (.same _) (.inl ⟨rfl, .inl rfl⟩) (buildsRules_of_rules h)
    (buildsRules_of_rules h')

theorem fieldRules_inlined {field : FieldDef}
    (h : Compiler.fieldRules ⟨types, options⟩ field = .ok rules)
    (h' : Compiler.fieldRules ⟨a.inlined, options⟩ field = .ok rules') : rules' = rules := by
  rw [fieldRules, bind_succeeds_iff] at h h'
  obtain ⟨tags, htags, h⟩ := h
  obtain ⟨tags', htags', h'⟩ := h'
  cases htags.symm.trans htags'
  exact BuildsRules.inlined (.same _) (.inl ⟨rfl, .inl rfl⟩) (buildsRules_of_rules h)
    (buildsRules_of_rules h')

/-- Without the alias, the rules that it lends are rules of the field. -/
theorem fieldRules_newField {own lent : List Rule}
    (hown : Compiler.fieldRules ⟨types, options⟩ a.field = .ok own)
    (hlent : Compiler.typeRules ⟨types, options⟩ a.aliasType = .ok lent)
    (hportable : ∀ rule ∈ lent, rule.isPortable = true)
    (h : Compiler.fieldRules ⟨a.inlined, options⟩ a.newField = .ok rules) :
    rules = own ++ lent := by
  rw [fieldRules, bind_succeeds_iff] at hown h
  rw [typeRules, bind_succeeds_iff] at hlent
  obtain ⟨ownTags, hownTags, hown⟩ := hown
  obtain ⟨lentTags, hlentTags, hlent⟩ := hlent
  obtain ⟨tags, htags, h⟩ := h
  -- The tags of the alias are read in the scope of the field now, which no rule depends on.
  have hparse : Tag.parseLines .field (a.field.tags ++ a.aliasType.tags) =
      .ok (ownTags ++ lentTags.map (Tag.withScope .field)) :=
    Tag.parseLines_append_iff.mpr ⟨_, _, mapError_succeeds_iff.mp hownTags,
      Tag.parseLines_withScope (mapError_succeeds_iff.mp hlentTags) .field, rfl⟩
  cases (mapError_succeeds_iff.mp htags).symm.trans hparse
  obtain ⟨rules₁, rules₂, hfirst, hsecond, rfl⟩ :=
    buildsRules_append_iff.mp (buildsRules_of_rules h)
  have hstands : a.Stands a.field.type a.underlying := AliasField.Replaces.inlined.type
  have hfield : Scope.field ≠ .type := by decide
  have hfirst := BuildsRules.inlined hstands (.inl ⟨rfl, .inr hfield⟩) (buildsRules_of_rules hown)
    hfirst
  have hsecond := BuildsRules.inlined .inlined (.inr hportable) (buildsRules_of_rules hlent)
    (buildsRules_withScope hsecond)
  rw [hfirst, hsecond]

end Compiler

end TaggedSchema
