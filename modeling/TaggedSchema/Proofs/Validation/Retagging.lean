import TaggedSchema.Proofs.Schema.Retagging
import TaggedSchema.Proofs.Validation.Comparison
import TaggedSchema.Proofs.Validation.Findings

/-!
# Walks where one field has other rules

The walks by two schemas that differ in some constraints of one field. The field may occur any
number of times in a value and be reached in any way. What has to be compared is only what these
constraints do where the field is met; from this follows how all that is found is related.
-/

namespace TaggedSchema

/-! ## Structs with other rules at a field -/

/-- The second field is the first one, or it is this field with these rules. -/
inductive CompiledField.Reruled (field : CompiledField) (rules : List Rule) :
    CompiledField → CompiledField → Prop where
  | same (other : CompiledField) : Reruled field rules other other
  | replaced : Reruled field rules field (field.withRules rules)

theorem CompiledField.reruled_modify {field : CompiledField} (rules : List Rule)
    {fields : List CompiledField} {position : Nat} (h : fields[position]? = some field) :
    List.Forall₂ (Reruled field rules) fields (fields.modify position (withRules rules)) := by
  induction fields generalizing position with
  | nil => cases h
  | cons other fields ih =>
    cases position with
    | zero =>
      cases h
      rw [List.modify_zero_cons]
      exact .cons .replaced (List.forall₂_same.mpr fun other _ => .same other)
    | succ position =>
      rw [List.modify_succ_cons]
      exact .cons (.same other) (ih h)

namespace Schema.Rerules

variable {schema schema' : Schema} {owner : String} {position : Nat} {field : CompiledField}
variable {rules : List Rule} (h : Schema.Rerules schema schema' owner position field rules)

include h

theorem struct? (name : String) :
    Option.Rel
      (fun body body' => body'.unions = body.unions ∧ body'.zeroOrOne = body.zeroOrOne ∧
        List.Forall₂ (CompiledField.Reruled field rules) body.fields body'.fields)
      (schema.struct? name) (schema'.struct? name) := by
  have hsame (body : CompiledStruct) :
      List.Forall₂ (CompiledField.Reruled field rules) body.fields body.fields :=
    List.forall₂_same.mpr fun other _ => .same other
  cases hget : schema.get? name with
  | none =>
    simp only [Schema.struct?, h.get? name, hget, Option.map_none, Option.bind_eq_bind,
      Option.bind_none]
    exact .none
  | some type =>
    simp only [Schema.struct?, h.get? name, hget, Option.map_some, Option.bind_eq_bind,
      Option.bind_some]
    cases hbody : type.body with
    | «alias» plan =>
      simp only [CompiledType.reruleAt, hbody]
      exact .none
    | struct body =>
      simp only [CompiledType.reruleAt, hbody]
      by_cases hname : type.name = owner
      · obtain ⟨found, hfound, hposition⟩ := h.field
        have hget' : schema.get? owner = some type := by
          rw [← hname, Catalog.name_of_findEntry hget, hget]
        have hstruct : schema.struct? owner = some body := by
          rw [Schema.struct?, hget', Option.bind_eq_bind, Option.bind_some, hbody]
        cases hstruct.symm.trans hfound
        rw [if_pos hname]
        exact .some ⟨rfl, rfl, CompiledField.reruled_modify rules hposition⟩
      · rw [if_neg hname, hbody]
        exact .some ⟨rfl, rfl, hsame body⟩

theorem field? (name jsonName : String) :
    Option.Rel (CompiledField.Reruled field rules)
      ((schema.struct? name).bind fun body => body.field? jsonName)
      ((schema'.struct? name).bind fun body => body.field? jsonName) := by
  rcases optionRel_cases (h.struct? name) with
    ⟨hget, hget'⟩ | ⟨body, body', hget, hget', -, -, hfields⟩
  · rw [hget, hget']
    exact .none
  · rw [hget, hget']
    exact find?_of_forall₂ hfields fun field field' hfield => by cases hfield <;> rfl

theorem rules_get? (name : String) :
    (schema'.get? name).map CompiledType.rules = (schema.get? name).map CompiledType.rules := by
  rw [h.get? name, Option.map_map]
  congr 1
  funext type
  rw [Function.comp_apply, CompiledType.reruleAt]
  split
  next => split <;> rfl
  next => rfl

theorem plan_get? (name : String) :
    (schema'.get? name).map CompiledType.plan = (schema.get? name).map CompiledType.plan := by
  rw [h.get? name, Option.map_map]
  congr 1
  funext type
  rw [Function.comp_apply, CompiledType.reruleAt]
  split
  next body hbody =>
    split
    next => rw [CompiledType.plan, CompiledType.plan, hbody]
    next => rfl
  next => rfl

end Schema.Rerules

/-! ## Constraints that shape nothing -/

/-- The rule is a constraint that shapes nothing. -/
def Rule.isPlain (rule : Rule) : Bool := !rule.isComposed && !rule.shapes

theorem activeRules_of_plain (gates : GateView) {rules : List Rule}
    (h : rules.all Rule.isPlain = true) : activeRules gates rules = rules := by
  induction rules with
  | nil => rfl
  | cons rule rules ih =>
    rw [List.all_cons, Bool.and_eq_true] at h
    obtain ⟨hrule, hrules⟩ := h
    cases rule with
    | leaf constraint tag => exact congrArg (List.cons _) (ih hrules)
    | within | guarded => cases hrule

theorem filter_shapes_of_plain {rules : List Rule} (h : rules.all Rule.isPlain = true) :
    rules.filter Rule.shapes = [] := by
  apply List.filter_eq_nil_iff.mpr
  intro rule hrule
  have hplain := List.all_eq_true.mp h rule hrule
  rw [Rule.isPlain, Bool.and_eq_true, Bool.not_eq_true', Bool.not_eq_true'] at hplain
  exact Bool.eq_false_iff.mp hplain.2

/-! ## Sites of the field -/

/-- Two schemas that differ in the rules of one field. Of those that are active, some constraints
have been swapped. -/
structure RuleSwap where
  schema : Schema
  schema' : Schema
  gates : GateView
  owner : String
  position : Nat
  field : CompiledField
  rules : List Rule
  rerules : Schema.Rerules schema schema' owner position field rules
  front : List Rule
  swapped : List Rule
  swapped' : List Rule
  back : List Rule
  active : activeRules gates field.rules = front ++ swapped ++ back
  active' : activeRules gates rules = front ++ swapped' ++ back
  plain : swapped.all Rule.isPlain = true
  plain' : swapped'.all Rule.isPlain = true

namespace RuleSwap

variable (s : RuleSwap)

/-- The walk before the swap. -/
def before : Context := ⟨s.schema, s.gates⟩

/-- The walk after the swap. -/
def after : Context := ⟨s.schema', s.gates⟩

@[simp]
theorem schema_before : s.before.schema = s.schema := rfl

@[simp]
theorem schema_after : s.after.schema = s.schema' := rfl

@[simp]
theorem gates_before : s.before.gates = s.gates := rfl

@[simp]
theorem gates_after : s.after.gates = s.gates := rfl

/-- The site of the field in a struct at the site `outer`, before the swap. -/
def siteIn (outer : Site) : Site := outer.field s.field s.field.rules s.field.isOpaque

/-- The site of the field in a struct at the site `outer`, after the swap. -/
def siteIn' (outer : Site) : Site := outer.field s.field s.rules s.field.isOpaque

/-- The sites are the same, or both are the site of the field in the same struct. -/
inductive Meets : Site → Site → Prop where
  | same (site : Site) : Meets site site
  | field (outer : Site) : Meets (s.siteIn outer) (s.siteIn' outer)

/-- What has to be known of the swapped constraints to compare the walks from all sites at which
`Good` holds of the value. -/
structure Compares (Good : Value → Site → Prop)
    (Finds : List Violation → List Violation → Prop) : Prop extends Context.Composes Finds where
  next {value inner : Value} {site innerSite : Site} (h : Good value site)
    (hlooks : s.before.LooksAt value site) (hfits : site.plan.fits value = true)
    (hleads : s.before.LeadsTo value site inner innerSite) : Good inner innerSite
  blocked {value : Value} {outer : Site} (h : Good value (s.siteIn outer)) :
    Option.Rel
      (fun violation violation' => Finds [violation.nativeIf (s.siteIn outer).native]
        [violation'.nativeIf (s.siteIn outer).native])
      ((s.siteIn outer).blocked? value
        ((s.front ++ s.swapped ++ s.back).filterMap Rule.constraint?))
      ((s.siteIn outer).blocked? value
        ((s.front ++ s.swapped' ++ s.back).filterMap Rule.constraint?))
  mismatch {value : Value} {outer : Site} (h : Good value (s.siteIn outer))
    (hlooks : s.before.LooksAt value (s.siteIn outer))
    (hunfit : (s.siteIn outer).plan.fits value = false) (lent : List Rule) :
    Finds
      [((s.siteIn outer).mismatch value
        ((s.front ++ s.swapped ++ s.back ++ lent).filterMap Rule.constraint?)).nativeIf
          (s.siteIn outer).native]
      [((s.siteIn outer).mismatch value
        ((s.front ++ s.swapped' ++ s.back ++ lent).filterMap Rule.constraint?)).nativeIf
          (s.siteIn outer).native]
  found {value : Value} {outer : Site} (h : Good value (s.siteIn outer))
    (hlooks : s.before.LooksAt value (s.siteIn outer))
    (hfits : (s.siteIn outer).plan.fits value = true) :
    Finds (s.swapped.flatMap (s.before.ruleViolations value (s.siteIn outer)))
      (s.swapped'.flatMap (s.after.ruleViolations value (s.siteIn' outer)))

variable {s} {site site' : Site}

theorem Meets.place (h : s.Meets site site') :
    ∃ rules named, site' = site.relocate rules named := by
  cases h with
  | same => exact ⟨site.rules, site.plan.access.named, by rw [Site.relocate, Plan.withNamed_self]⟩
  | field outer =>
    exact ⟨s.rules, (s.siteIn outer).plan.access.named,
      by rw [Site.relocate, Plan.withNamed_self]; rfl⟩

theorem meets_field {field field' : CompiledField}
    (h : CompiledField.Reruled s.field s.rules field field') (outer : Site) :
    s.Meets (outer.field field field.rules field.isOpaque)
      (outer.field field' field'.rules field'.isOpaque) := by
  cases h with
  | same => exact .same _
  | replaced => exact .field outer

/-! ## The rules at a site -/

variable (s) in
theorem lentRules_after (named : List String) :
    s.after.lentRules named = s.before.lentRules named := by
  rw [Context.lentRules, Context.lentRules]
  congr 1
  funext name
  have hrules := s.rerules.rules_get? name
  simp only [schema_before, schema_after, gates_before, gates_after]
  cases hget : s.schema.get? name with
  | none =>
    rw [hget, Option.map_none, Option.map_eq_none_iff] at hrules
    rw [hrules]
  | some type =>
    rw [hget, Option.map_some] at hrules
    obtain ⟨type', hget', hsame⟩ := Option.map_eq_some_iff.mp hrules
    simp only [hget', hsame]

variable (s) in
theorem rulesAt_after (site : Site) : s.after.rulesAt site = s.before.rulesAt site := by
  rw [Context.rulesAt, Context.rulesAt, lentRules_after]
  rfl

variable (s) in
theorem active_siteIn (outer : Site) : activeRules s.before.gates (s.siteIn outer).rules =
    s.front ++ s.swapped ++ s.back :=
  s.active

variable (s) in
theorem active_siteIn' (outer : Site) : activeRules s.after.gates (s.siteIn' outer).rules =
    s.front ++ s.swapped' ++ s.back :=
  s.active'

variable (s) in
/-- Behind the rules of the field come those of named types, which are the same. -/
theorem exists_rulesAt (outer : Site) :
    ∃ lent, s.before.rulesAt (s.siteIn outer) = s.front ++ s.swapped ++ s.back ++ lent ∧
      s.after.rulesAt (s.siteIn' outer) = s.front ++ s.swapped' ++ s.back ++ lent := by
  have hshallow : (s.siteIn' outer).isShallow = (s.siteIn outer).isShallow := rfl
  have hnamed : (s.siteIn' outer).plan.access.named = (s.siteIn outer).plan.access.named := rfl
  rw [Context.rulesAt, Context.rulesAt, hshallow, hnamed, active_siteIn, active_siteIn',
    lentRules_after]
  cases (s.siteIn outer).isShallow with
  | true => exact ⟨[], (List.append_nil _).symm, (List.append_nil _).symm⟩
  | false => exact ⟨_, rfl, rfl⟩

/-- The swapped constraints say nothing about what lies inside. -/
theorem Meets.rulesWithin (h : s.Meets site site') (isPlace : Place → Bool) :
    rulesWithin isPlace (s.after.rulesAt site') = rulesWithin isPlace (s.before.rulesAt site) := by
  cases h with
  | same => rw [rulesAt_after]
  | field outer =>
    obtain ⟨lent, hbefore, hafter⟩ := s.exists_rulesAt outer
    have hnone {rules : List Rule} (hplain : rules.all Rule.isPlain = true) :
        TaggedSchema.rulesWithin isPlace rules = [] := by
      apply List.filterMap_eq_nil_iff.mpr
      intro rule hrule
      have hrulePlain := List.all_eq_true.mp hplain rule hrule
      cases rule with
      | leaf => rfl
      | within | guarded => cases hrulePlain
    have happend (rules others : List Rule) : TaggedSchema.rulesWithin isPlace (rules ++ others) =
        TaggedSchema.rulesWithin isPlace rules ++ TaggedSchema.rulesWithin isPlace others :=
      List.filterMap_append
    rw [hbefore, hafter]
    simp only [happend, hnone s.plain, hnone s.plain', List.append_nil]

/-! ## One step of the walks -/

variable {Good : Value → Site → Prop} {Finds : List Violation → List Violation → Prop}

/-- From sites that meet on, the walks over the value find what is related. -/
def Tallies (s : RuleSwap) (Good : Value → Site → Prop)
    (Finds : List Violation → List Violation → Prop) (value : Value) : Prop :=
  ∀ site site', Good value site → s.Meets site site' →
    Finds (s.before.walk value site) (s.after.walk value site')

namespace Compares

section

variable {value : Value} (h : s.Compares Good Finds)
variable (ih : ∀ inner, inner.LiesIn value → s.Tallies Good Finds inner)
variable (hgood : Good value site) (hmeets : s.Meets site site')
variable (hlooks : s.before.LooksAt value site) (hfits : site.plan.fits value = true)

include h ih hgood hlooks hfits

/-- What is found at a next value is related, if the next sites meet again. -/
theorem step {inner : Value} {innerSite innerSite' : Site}
    (hleads : s.before.LeadsTo value site inner innerSite) (hinner : s.Meets innerSite innerSite') :
    Finds (s.before.walk inner innerSite) (s.after.walk inner innerSite') :=
  ih inner hleads.liesIn _ _ (h.next hgood hlooks hfits hleads) hinner

include hmeets

/-- A rule that both sites have finds the same there or is compared at the next values. -/
theorem ruleViolations {rule : Rule} (hrule : rule ∈ s.before.rulesAt site) :
    Finds (s.before.ruleViolations value site rule) (s.after.ruleViolations value site' rule) := by
  obtain ⟨rules, named, rfl⟩ := hmeets.place
  cases rule with
  | leaf constraint tag => exact h.same _
  | guarded condition inner tag => exact h.same []
  | within place inner tag =>
    cases place with
    | subfield name =>
      apply h.toComposes.subfieldViolations ⟨rules, named, rfl⟩
      intro access type hplan hobject
      rcases optionRel_cases (s.rerules.field? type name) with
        ⟨hget, hget'⟩ | ⟨field, field', hget, hget', hfield⟩
      · rw [schema_before, schema_after, hget, hget']
        exact .none
      · rw [schema_before, schema_after, hget, hget']
        obtain ⟨body, hbody, hfound⟩ := Option.bind_eq_some_iff.mp hget
        refine .some (h.step ih hgood hlooks hfits
          (.subfield hplan hobject hbody hfound hrule) ?_)
        cases hfield <;> exact .same _
    | item selector =>
      apply h.toComposes.itemViolations ⟨rules, named, rfl⟩
      intro access element semantics items hplan hitems
      exact h.step ih hgood hlooks hfits (.item hplan hitems hrule) (.same _)
    | eachVal | eachKey =>
      simp only [Context.ruleViolations, Context.placeViolations]
      exact h.same []

/-- The rules at the site: those before and behind the swapped ones are compared one by one. -/
theorem rulesViolations :
    Finds ((s.before.rulesAt site).flatMap (s.before.ruleViolations value site))
      ((s.after.rulesAt site').flatMap (s.after.ruleViolations value site')) := by
  have heach {rules : List Rule} (hrules : ∀ rule ∈ rules, rule ∈ s.before.rulesAt site) :
      Finds (rules.flatMap (s.before.ruleViolations value site))
        (rules.flatMap (s.after.ruleViolations value site')) :=
    h.flatMap_same fun rule hrule =>
      h.ruleViolations ih hgood hmeets hlooks hfits (hrules rule hrule)
  cases hmeets with
  | same =>
    rw [rulesAt_after]
    exact heach fun rule hrule => hrule
  | field outer =>
    obtain ⟨lent, hbefore, hafter⟩ := s.exists_rulesAt outer
    rw [hbefore] at heach
    rw [hbefore, hafter]
    simp only [List.flatMap_append]
    refine h.append (h.append (h.append (heach ?_) (h.found hgood hlooks hfits)) (heach ?_))
      (heach ?_) <;> intro rule hrule <;> simp [hrule]

/-- All next sites are the same in both walks, but for those of the field itself. -/
theorem insideViolations (hdeep : site.isShallow = false) :
    Finds (s.before.insideViolations value site (s.before.rulesAt site))
      (s.after.insideViolations value site' (s.after.rulesAt site')) := by
  have hstep {inner : Value} {innerSite innerSite' : Site}
      (hleads : s.before.LeadsTo value site inner innerSite)
      (hinner : s.Meets innerSite innerSite') :=
    h.step ih hgood hlooks hfits hleads hinner
  have hwithin := hmeets.rulesWithin
  obtain ⟨rules, named, rfl⟩ := hmeets.place
  apply h.toComposes.insideViolations ⟨rules, named, rfl⟩
  · intro access name hplan hobject
    rw [schema_before, schema_after]
    rcases optionRel_cases (s.rerules.struct? name) with
      ⟨hget, hget'⟩ | ⟨body, body', hget, hget', hunions, hzeroOrOne, hfields⟩
    · rw [hget, hget']
      exact .none
    · rw [hget, hget']
      refine .some ⟨hunions, hzeroOrOne, ?_⟩
      apply ((List.forall₂_and_left _ _).mpr ⟨fun field hfield => hfield, hfields⟩).imp
      rintro field field' ⟨hfield, hreruled⟩
      refine ⟨by cases hreruled <;> rfl, hstep (.field hdeep hplan hobject hget hfield) ?_⟩
      exact meets_field hreruled site
  · intro access element semantics items hplan hitems position item hitem
    rw [hwithin]
    exact hstep (.element hdeep hplan hitems hitem) (.same _)
  · intro access key entry members hplan hmembers name inner hmem
    rw [hwithin, hwithin]
    refine ⟨?_, hstep (.entry hdeep hplan hmembers hmem) (.same _)⟩
    exact h.toComposes.keyViolations ⟨rules, named, rfl⟩ fun hnew hchecked =>
      hstep (.key hdeep hplan hmembers hmem hnew hchecked) (.same _)

end

/-! ## Whole walks -/

/-- From sites that meet on, all that is found is related. The induction is on the value. -/
theorem tallies (h : s.Compares Good Finds) (value : Value) : s.Tallies Good Finds value := by
  induction value using Value.liesIn_induct with
  | step value ih =>
    intro site site' hgood hmeets
    apply h.toComposes.walk hmeets.place
    · rw [Context.ownConstraints, Context.ownConstraints]
      cases hmeets with
      | same =>
        rw [gates_before, gates_after]
        cases site.blocked? value ((activeRules s.gates site.rules).filterMap Rule.constraint?) with
        | none => exact .none
        | some violation => exact .some (h.same _)
      | field outer =>
        rw [active_siteIn, active_siteIn']
        exact h.blocked hgood
    · intro hlooks hunfit
      cases hmeets with
      | same =>
        rw [rulesAt_after]
        exact h.same _
      | field outer =>
        obtain ⟨lent, hbefore, hafter⟩ := s.exists_rulesAt outer
        rw [hbefore, hafter]
        exact h.mismatch hgood hlooks hunfit lent
    · intro hlooks hfits
      exact h.toComposes.checkedViolations hmeets.place
        (h.rulesViolations ih hgood hmeets hlooks hfits)
        (h.insideViolations ih hgood hmeets hlooks hfits)

/-- Both schemas know the same types, and what is found in a whole object is related. -/
theorem validate (h : s.Compares Good Finds) {name : String} {type : CompiledType}
    (htype : s.schema.get? name = some type) {new : Value} {old : Option Value}
    (hgood : Good new (.root type.plan old)) :
    ∃ found found', TaggedSchema.validate s.schema name s.gates new old = .ok found ∧
      TaggedSchema.validate s.schema' name s.gates new old = .ok found' ∧ Finds found found' := by
  have hplans := s.rerules.plan_get? name
  rw [htype, Option.map_some] at hplans
  obtain ⟨type', htype', hplan⟩ := Option.map_eq_some_iff.mp hplans
  refine ⟨s.before.walk new (.root type.plan old), s.after.walk new (.root type.plan old), ?_, ?_,
    h.tallies new _ _ hgood (.same _)⟩
  · rw [TaggedSchema.validate, Schema.type, htype]
    rfl
  · rw [TaggedSchema.validate, Schema.type, htype', ← hplan]
    rfl

end Compares

end RuleSwap

/-! ## Lines of a field that are replaced -/

/-- Lines of a field are replaced in a universe that is accepted before and after. If they are built
into plain constraints, these are what is swapped. -/
theorem FieldLines.exists_ruleSwap {types : Universe} {options : Options} (a : FieldLines types)
    {lines' : List String} (hok : (compile types options).isOk = true)
    (hok' : (compile (a.replaced lines') options).isOk = true) (gates : GateView) :
    ∃ rules rules', Compiler.BuildsLines ⟨types, options⟩ a.field a.lines rules ∧
      Compiler.BuildsLines ⟨types, options⟩ a.field lines' rules' ∧
      (rules.all Rule.isPlain = true → rules'.all Rule.isPlain = true →
        ∃ s : RuleSwap, s.schema = (compile types options).schema ∧
          s.schema' = (compile (a.replaced lines') options).schema ∧ s.gates = gates ∧
          s.field.jsonName = a.field.jsonName ∧ s.swapped = rules ∧ s.swapped' = rules') := by
  obtain ⟨before, rules, rules', after, hrules, hrules', hswap⟩ := a.exists_rerules hok hok'
  refine ⟨rules, rules', hrules, hrules', fun hplain hplain' => ?_⟩
  have hshapes : rules'.filter Rule.shapes = rules.filter Rule.shapes := by
    rw [filter_shapes_of_plain hplain, filter_shapes_of_plain hplain']
  obtain ⟨compiled, hcompiled, hname, hrerules⟩ := hswap hshapes
  have hactive {between : List Rule} (hplain : between.all Rule.isPlain = true) :
      activeRules gates (before ++ between ++ after) =
        activeRules gates before ++ between ++ activeRules gates after := by
    have hbetween := activeRules_of_plain gates hplain
    rw [activeRules] at hbetween ⊢
    rw [List.filterMap_append, List.filterMap_append, hbetween, activeRules, activeRules]
  refine ⟨⟨_, _, gates, _, _, compiled, _, hrerules, activeRules gates before, rules, rules',
    activeRules gates after, ?_, hactive hplain', hplain, hplain'⟩, rfl, rfl, rfl, hname, rfl, rfl⟩
  rw [hcompiled, hactive hplain]

end TaggedSchema
