import TaggedSchema.Proofs.Rule.Accepted
import TaggedSchema.Proofs.Schema.Compiled
import TaggedSchema.Proofs.Validation.CutOff

/-!
# Chains of rules

A rule with the rules in it leads from a field to values inside it and ends in a constraint. On
creation the constraint is enforced on all these values, unless the rule is cut off. One that is
cut off is not enforced anywhere.
-/

namespace TaggedSchema

/-- What goes against a constraint on a value alone. An integer that does not fit a signed word is
above every bound. -/
def Constraint.IsViolatedBy : Constraint → Value → Prop
  | minimum bound, .number (.int n) => Text.FitsSigned n ∧ n < bound
  | maxLength limit, .string text => limit < text.utf8ByteSize
  | maxItems limit, .array items => limit < items.length
  | maxProperties limit, .object members => limit < members.length
  | format kind, .string text => kind.complaints text.toList ≠ []
  | differs other, value => value.equalByValue other = true
  | _, _ => False

theorem Constraint.breach?_of_isViolatedBy {constraint : Constraint} {value : Value}
    (h : constraint.IsViolatedBy value) (gates : GateView) (path : Path) :
    ∃ violation, constraint.breach? gates path value = some violation ∧
      violation.path = path ∧ violation.origin = constraint.origin := by
  suffices hbreach : ∃ violation, constraint.breach? gates path value = some violation by
    obtain ⟨violation, hviolation⟩ := hbreach
    exact ⟨violation, hviolation, (isAt_of_breach? hviolation).path,
      origin_of_breach? hviolation⟩
  have hover {size limit : Nat} {report : Nat → Violation} (h : limit < size) :
      overLimit? (some size) limit report = some (report size) := by
    simp [overLimit?, Option.filter, h]
  rw [IsViolatedBy.eq_def] at h
  split at h
  next bound n =>
    have hbelow : (Value.number (.int n)).isBelow bound = true := by
      simp [Value.isBelow, Number.isBelow, Number.isSigned, h]
    exact ⟨_, if_pos hbelow⟩
  next limit text => exact ⟨_, hover h⟩
  next limit items => exact ⟨_, hover h⟩
  next limit members => exact ⟨_, hover h⟩
  next kind text =>
    simp only [breach?, Value.text?, Option.map_some, Option.getD_some]
    exact ⟨_, rfl⟩
  next other => exact ⟨_, if_pos h⟩
  next => cases h

/-! ## The values of a chain -/

/-- A value at a place. -/
structure Spot where
  value : Value
  path : Path
  plan : Plan
  /-- The place is a field or a selected item, which may be unset. -/
  isField : Bool

namespace Spot

/-- The value is set, and has the shape that is expected of it. -/
structure IsReady (spot : Spot) : Prop where
  present : (spot.value.isNull || spot.isField && spot.plan.isUnset spot.value) = false
  fits : spot.plan.fits spot.value = true

/-- The site of the spot on creation. -/
def site (spot : Spot) (rules : List Rule) (native isShallow : Bool) : Site :=
  ⟨spot.path, rules, spot.plan, none, native, spot.isField, isShallow⟩

end Spot

/-- The spot of a field of a whole object. -/
def CompiledField.spot (field : CompiledField) (object : Value) : Spot :=
  ⟨object.member field.jsonName, Path.root.field field.jsonName, field.plan, true⟩

/-- The spots to which a place leads from a spot: the named member, the first item with the key
fields, each element of a list, each value of a map, and each key of it, which is read as a value of
the domain of the keys. -/
inductive Schema.StepsTo (schema : Schema) (spot : Spot) : Place → Spot → Prop where
  | subfield {access : Access} {type name : String} {body : CompiledStruct}
      {field : CompiledField} (hplan : spot.plan = .struct access type)
      (hbody : schema.struct? type = some body) (hfield : body.field? name = some field) :
      StepsTo schema spot (.subfield name)
        ⟨spot.value.member name, spot.path.field name, field.plan, true⟩
  | item {access : Access} {element : Plan} {semantics : ListSemantics} {items : List Value}
      {selector : ItemSelector} {item : Value} {position : Nat}
      (hplan : spot.plan = .list access element semantics) (hitems : spot.value = .array items)
      (hfirst : (items.zipIdx.find? fun (item, _) => selector.selects item) =
        some (item, position)) :
      StepsTo schema spot (.item selector)
        ⟨item, semantics.elementPath spot.path position item, element, true⟩
  | element {access : Access} {element : Plan} {semantics : ListSemantics} {items : List Value}
      {item : Value} {position : Nat} (hplan : spot.plan = .list access element semantics)
      (hitems : spot.value = .array items) (hitem : items[position]? = some item) :
      StepsTo schema spot .eachVal
        ⟨item, semantics.elementPath spot.path position item, element, false⟩
  | entry {access : Access} {key entry : Plan} {members : List (String × Value)} {name : String}
      {inner : Value} (hplan : spot.plan = .map access key entry)
      (hmembers : spot.value = .object members) (hentry : (name, inner) ∈ members) :
      StepsTo schema spot .eachVal ⟨inner, spot.path.key name, entry, false⟩
  | key {access : Access} {key entry : Plan} {members : List (String × Value)} {name : String}
      {inner : Value} (hplan : spot.plan = .map access key entry)
      (hmembers : spot.value = .object members) (hentry : (name, inner) ∈ members) :
      StepsTo schema spot .eachKey ⟨key.keyValue name, spot.path.key name, key, false⟩

/-- The rule is a chain of which all conditions hold. From the spot it leads to `last`, by values
that are set and fit, and there it asks for the constraint. -/
inductive Context.Selects (c : Context) :
    (rule : Rule) → (spot : Spot) → (constraint : Constraint) → (last : Spot) → Prop where
  | here {constraint : Constraint} {tag : String} {spot : Spot} (hready : spot.IsReady) :
      Selects c (.leaf constraint tag) spot constraint spot
  | guarded {condition : Condition} {inner : Rule} {tag : String} {spot last : Spot}
      {constraint : Constraint} (hholds : condition.holds c.gates = true)
      (hinner : Selects c inner spot constraint last) :
      Selects c (.guarded condition inner tag) spot constraint last
  | within {place : Place} {inner : Rule} {tag : String} {spot next last : Spot}
      {constraint : Constraint} (hready : spot.IsReady) (hstep : c.schema.StepsTo spot place next)
      (hinner : Selects c inner next constraint last) :
      Selects c (.within place inner tag) spot constraint last

/-- Each place that the rule leads to is one that values with the plan have. -/
def Schema.HasPlaces (schema : Schema) : Rule → Plan → Prop
  | .leaf .., _ => True
  | .guarded _ inner _, plan => schema.HasPlaces inner plan
  | .within (.subfield name) inner _, .struct _ type =>
    ∃ body field, schema.struct? type = some body ∧ body.field? name = some field ∧
      schema.HasPlaces inner field.plan
  | .within (.item _) inner _, .list _ element _ => schema.HasPlaces inner element
  | .within .eachVal inner _, .list _ element _ => schema.HasPlaces inner element
  | .within .eachVal inner _, .map _ _ value => schema.HasPlaces inner value
  | .within .eachKey inner _, .map _ key _ => schema.HasPlaces inner key
  | .within .., _ => False

/-! ## Accepted chains -/

section

variable {types : Universe} {options : Options}

/-- A chain that the builder has accepted for a type leads to places that its values have. -/
theorem hasPlaces_of_accepts (hok : (compile types options).isOk = true) {scope : Scope}
    {target : TypeRef} {around : Surroundings} {rule : Rule}
    (h : Compiler.Accepts ⟨types, options⟩ scope target around rule) {plan : Plan}
    (hplan : Compiler.HasPlan ⟨types, options⟩ target plan) :
    (compile types options).schema.HasPlaces rule plan := by
  induction h generalizing plan with
  | leaf => exact trivial
  | guarded hgate hinner ih => exact ih hplan
  | element hresolve hshape hinner ih =>
    obtain ⟨_, _, _, rfl, helement⟩ := hplan.of_slice hresolve hshape
    exact ih helement
  | entry hresolve hshape hinner ih =>
    obtain ⟨_, _, _, rfl, -, hvalue⟩ := hplan.of_map hresolve hshape
    exact ih hvalue
  | key hresolve hshape hinner ih =>
    obtain ⟨_, _, _, rfl, hkey, -⟩ := hplan.of_map hresolve hshape
    exact ih hkey
  | @subfield scope target around tag type jsonName field inner hstruct hfield hinner ih =>
    obtain ⟨resolved, name, hresolve, hshape, htype⟩ := Compiler.struct_eq_ok hstruct
    obtain ⟨access, rfl⟩ := hplan.of_struct hresolve hshape
    cases hbody : type.body with
    | struct fields =>
      obtain ⟨body, hstruct?, hfields⟩ := struct?_of_isOk hok htype hbody
      rw [TypeDef.field?, TypeDef.fields, hbody] at hfield
      obtain ⟨compiled, hfind, hcompiled⟩ := Compiler.exists_compiled_field hfields hfield
      refine ⟨body, compiled, hstruct?, hfind, ih ?_⟩
      exact Compiler.hasPlan_of_plan hcompiled.plan
    | _ =>
      rw [TypeDef.field?, TypeDef.fields, hbody] at hfield
      cases hfield
  | item hstruct helement hselects hkeys hinner ih =>
    obtain ⟨resolved, hresolve, hshape⟩ := Compiler.element_eq_ok helement
    obtain ⟨_, _, _, rfl, hinnerPlan⟩ := hplan.of_slice hresolve hshape
    exact ih hinnerPlan

end

/-! ## Presence -/

theorem Constraint.presence?_of_scope {constraint : Constraint} {scope : Scope}
    (hscope : scope ∈ constraint.tag.scopes) (hne : scope ≠ .field) (path : Path)
    (isUnset : Bool) : constraint.presence? path isUnset = none := by
  cases constraint with
  | required | forbidden => exact absurd (List.mem_singleton.mp hscope) hne
  | _ => rfl

theorem Constraint.presence?_of_isViolatedBy {constraint : Constraint} {value : Value}
    (h : constraint.IsViolatedBy value) (path : Path) (isUnset : Bool) :
    constraint.presence? path isUnset = none := by
  cases constraint with
  | required | forbidden => cases h
  | _ => rfl

theorem Constraint.presence?_of_set {constraint : Constraint} (h : constraint ≠ .forbidden)
    (path : Path) : constraint.presence? path false = none := by
  cases constraint with
  | forbidden => exact absurd rfl h
  | _ => rfl

theorem Site.blocked?_of_create {site : Site} {value : Value} {rules : List Constraint}
    (hold : site.old = none) (h : ∀ constraint ∈ rules,
      constraint.presence? site.path (site.plan.isUnset value) = none) :
    site.blocked? value rules = none := by
  rw [blocked?, rejection?, hold, Option.bind_eq_bind, Option.bind_none, Option.none_or,
    List.findSome?_eq_none_iff]
  exact h

/-- What fits the plan of a struct is an object. -/
theorem Plan.isObject_of_fits {access : Access} {type : String} {value : Value}
    (h : (Plan.struct access type).fits value = true) : value.isObject = true := by
  cases value with
  | object members => rfl
  | _ => cases h

namespace Context

variable {c : Context} {spot next last : Spot} {rule inner : Rule} {constraint : Constraint}
  {place : Place} {tag : String} {rules : List Rule} {native isShallow : Bool}

/-- No rule on presence stops the walk at the spot on creation. -/
def IsClear (c : Context) (spot : Spot) (rules : List Rule) : Prop :=
  ∀ given ∈ rules, ∀ constraint tag, given.resolve c.gates = some (.leaf constraint tag) →
    constraint.presence? spot.path (spot.plan.isUnset spot.value) = none

/-- On creation, the walk checks a value that is set and fits. -/
theorem walk_spot (hready : spot.IsReady) (hclear : c.IsClear spot rules) :
    c.walk spot.value (spot.site rules native isShallow) =
      c.checkedViolations spot.value (spot.site rules native isShallow) := by
  have hblocked : (spot.site rules native isShallow).blocked? spot.value
      (c.ownConstraints (spot.site rules native isShallow)) = none := by
    apply Site.blocked?_of_create rfl
    intro constraint hconstraint
    obtain ⟨active, hactive, hleaf⟩ := List.mem_filterMap.mp hconstraint
    obtain ⟨given, hgiven, hresolve⟩ := mem_activeRules_iff.mp hactive
    cases active with
    | leaf found tag =>
      cases hleaf
      exact hclear given hgiven constraint tag hresolve
    | _ => cases hleaf
  exact (Course.checked rfl hblocked hready.present hready.fits).walk_eq

theorem mem_rulesAt_spot (hrule : ∃ given ∈ rules, given.resolve c.gates = some rule) :
    rule ∈ c.rulesAt (spot.site rules native isShallow) := by
  have hactive : rule ∈ activeRules c.gates rules := mem_activeRules_iff.mpr hrule
  rw [rulesAt]
  split
  · exact hactive
  · exact List.mem_append_left _ hactive

/-- What a rule on elements, values or keys holds is held by a rule on these. -/
theorem exists_within_of_mem {isPlace : Place → Bool}
    (hplace : ∀ place, isPlace place = true → place.isEach = true)
    (h : inner ∈ rulesWithin isPlace rules) :
    ∃ place tag, .within place inner tag ∈ rules ∧ place.isEach = true := by
  obtain ⟨place, tag, his, hrule⟩ := mem_rulesWithin_iff.mp h
  exact ⟨place, tag, hrule, hplace place his⟩

/-- The walk follows a step of the chain, unless the chain is cut off here. Each rule that applies
at the next spot lies within one that applies at this spot. It is the chain itself, or one of those
on elements, values or keys. -/
theorem exists_leadsTo (hready : spot.IsReady) (hstep : c.schema.StepsTo spot place next)
    (hrule : .within place inner tag ∈ c.rulesAt (spot.site rules native isShallow))
    (hdeep : place.isEach = true → isShallow = false) :
    ∃ nextRules nextNative,
      c.LeadsTo spot.value (spot.site rules native isShallow) next.value
        (next.site nextRules nextNative (!place.isEach)) ∧
      inner ∈ nextRules ∧ ∀ given ∈ nextRules, ∃ around tag,
        .within around given tag ∈ c.rulesAt (spot.site rules native isShallow) ∧
          (given = inner ∨ around.isEach = true) := by
  have hsingle (given : Rule) (h : given ∈ [inner]) : ∃ around tag,
      .within around given tag ∈ c.rulesAt (spot.site rules native isShallow) ∧
        (given = inner ∨ around.isEach = true) := by
    obtain rfl := List.mem_singleton.mp h
    exact ⟨place, tag, hrule, .inl rfl⟩
  have heach {isPlace : Place → Bool} (hplace : ∀ place, isPlace place = true → place.isEach = true)
      (given : Rule)
      (h : given ∈ rulesWithin isPlace (c.rulesAt (spot.site rules native isShallow))) :
      ∃ around tag, .within around given tag ∈ c.rulesAt (spot.site rules native isShallow) ∧
        (given = inner ∨ around.isEach = true) := by
    obtain ⟨around, tag, hwithin, haround⟩ := exists_within_of_mem hplace h
    exact ⟨around, tag, hwithin, .inr haround⟩
  cases hstep with
  | @subfield access type name body field hplan hbody hfield =>
    have hname : field.jsonName = name := CompiledStruct.jsonName_of_field? hfield
    subst hname
    have hobject : spot.value.isObject = true :=
      Plan.isObject_of_fits (hplan ▸ hready.fits)
    exact ⟨[inner], _, .subfield hplan hobject hbody hfield hrule, List.mem_singleton_self _,
      hsingle⟩
  | @item access element semantics items selector item position hplan hitems hfirst =>
    have hselected : selectedItem spot.path semantics selector items =
        (semantics.elementPath spot.path position item, item) := by
      rw [selectedItem, hfirst]
    have hleads := LeadsTo.item hplan hitems hrule
    change c.LeadsTo _ _ (selectedItem spot.path semantics selector items).2 (Site.item _
      (selectedItem spot.path semantics selector items).1 selector element inner) at hleads
    rw [hselected] at hleads
    exact ⟨[inner], _, hleads, List.mem_singleton_self _, hsingle⟩
  | element hplan hitems hitem =>
    refine ⟨_, _, .element (hdeep rfl) hplan hitems hitem, ?_, heach Place.isEach_of_isEachVal⟩
    exact mem_rulesWithin_iff.mpr ⟨_, _, rfl, hrule⟩
  | entry hplan hmembers hentry =>
    refine ⟨_, _, .entry (hdeep rfl) hplan hmembers hentry, ?_, heach Place.isEach_of_isEachVal⟩
    exact mem_rulesWithin_iff.mpr ⟨_, _, rfl, hrule⟩
  | key hplan hmembers hentry =>
    have hinner : inner ∈ rulesWithin Place.isEachKey
        (c.rulesAt (spot.site rules native isShallow)) :=
      mem_rulesWithin_iff.mpr ⟨_, _, rfl, hrule⟩
    -- A key is only looked at if some rule applies to it, which here is the chain.
    have hchecked : (rulesWithin Place.isEachKey
        (c.rulesAt (spot.site rules native isShallow))).isEmpty = false :=
      List.isEmpty_eq_false_iff_exists_mem.mpr ⟨inner, hinner⟩
    refine ⟨_, _, .key (hdeep rfl) hplan hmembers hentry rfl ?_, hinner,
      heach Place.isEach_of_isEachKey⟩
    rw [hchecked, Bool.false_and]

theorem Selects.isReady (h : c.Selects rule spot constraint last) : spot.IsReady := by
  induction h with
  | here hready => exact hready
  | guarded hholds hinner ih => exact ih
  | within hready hstep hinner ih => exact hready

/-- A chain that goes on is no constraint, and one that ends asks for its own constraint. -/
theorem Selects.eq_of_resolve (h : c.Selects rule spot constraint last) {found : Constraint}
    (hresolve : rule.resolve c.gates = some (.leaf found tag)) : found = constraint := by
  induction h with
  | here hready =>
    cases hresolve
    rfl
  | guarded hholds hinner ih =>
    rw [Rule.resolve, if_pos hholds] at hresolve
    exact ih hresolve
  | within hready hstep hinner ih => cases hresolve

/-- A chain is not cut off at a place where it can still be followed. -/
def Follows (rule : Rule) (isShallow : Bool) : Prop :=
  (if isShallow then rule.hasEach else rule.isCutOff) = false

theorem Follows.step (h : Follows (.within place inner tag) isShallow) :
    (place.isEach = true → isShallow = false) ∧ Follows inner (!place.isEach) := by
  cases heach : place.isEach with
  | true =>
    cases isShallow with
    | true => simp [Follows, Rule.hasEach, heach] at h
    | false => simpa [Follows, Rule.isCutOff, heach] using h
  | false =>
    cases isShallow with
    | true => simpa [Follows, Rule.hasEach, heach] using h
    | false => simpa [Follows, Rule.isCutOff, heach] using h

theorem acceptsIn_rulesAt {types : Universe} {options : Options}
    (hschema : c.schema = (compile types options).schema)
    (haccepted : ∀ given ∈ rules, ∃ scope, Compiler.AcceptsIn ⟨types, options⟩ scope given)
    (h : rule ∈ c.rulesAt (spot.site rules native isShallow)) :
    ∃ scope, Compiler.AcceptsIn ⟨types, options⟩ scope rule := by
  obtain ⟨given, hgiven, hresolve⟩ := exists_givenAt h
  cases hgiven with
  | own hrule =>
    obtain ⟨scope, hscope⟩ := haccepted given hrule
    exact ⟨scope, hscope.resolve hresolve⟩
  | lent hname htype hrule =>
    rw [hschema] at htype
    obtain ⟨definition, -, hdefinition⟩ := definition_of_mem_schema (Catalog.mem_of_get? htype)
    obtain ⟨-, hrules, -⟩ := Compiler.definition_spec hdefinition
    have haccepts := Compiler.typeRules_accepts hrules hrule
    exact ⟨.type, Compiler.AcceptsIn.resolve ⟨_, _, haccepts⟩ hresolve⟩

/-- What a rule at a spot holds has been accepted. Only below a subfield or an item can it stand in
the scope of fields. -/
theorem acceptsIn_of_within {types : Universe} {options : Options}
    (hschema : c.schema = (compile types options).schema)
    (haccepted : ∀ given ∈ rules, ∃ scope, Compiler.AcceptsIn ⟨types, options⟩ scope given)
    (h : .within place inner tag ∈ c.rulesAt (spot.site rules native isShallow)) :
    ∃ scope, Compiler.AcceptsIn ⟨types, options⟩ scope inner ∧
      (place.isEach = true → scope ≠ .field) := by
  obtain ⟨scope, hscope⟩ := acceptsIn_rulesAt hschema haccepted h
  exact hscope.inner

/-- The chain is followed step by step. Only rules in the scope of fields say anything about
presence, and at the next spots of a chain there are none but the chain itself. -/
theorem Selects.exists_violation {types : Universe} {options : Options}
    (hschema : c.schema = (compile types options).schema)
    (h : c.Selects rule spot constraint last) (hviolated : constraint.IsViolatedBy last.value)
    (haccepted : ∀ given ∈ rules, ∃ scope, Compiler.AcceptsIn ⟨types, options⟩ scope given)
    (hrule : ∃ given ∈ rules, given.resolve c.gates = rule.resolve c.gates)
    (hclear : c.IsClear spot rules) (hfollows : Follows rule isShallow) :
    ∃ violation ∈ c.walk spot.value (spot.site rules native isShallow),
      violation.path = last.path ∧ violation.origin = constraint.origin := by
  induction h generalizing rules native isShallow with
  | @here constraint tag spot hready =>
    obtain ⟨found, hbreach, hpath, horigin⟩ :=
      Constraint.breach?_of_isViolatedBy hviolated c.gates spot.path
    refine ⟨found.nativeIf native, ?_, ?_, ?_⟩
    · rw [walk_spot hready hclear]
      apply mem_checkedViolations_of_mem_rule (mem_rulesAt_spot hrule)
      rw [ruleViolations]
      change found.nativeIf native ∈ ((constraint.breach? c.gates spot.path spot.value).map
        fun violation => violation.nativeIf native).toList
      rw [hbreach]
      exact List.mem_singleton_self _
    · rw [Violation.nativeIf_path, hpath]
    · rw [Violation.nativeIf_origin, horigin]
  | guarded hholds hinner ih =>
    rw [Rule.resolve, if_pos hholds] at hrule
    exact ih hviolated haccepted hrule hclear hfollows
  | @within place inner tag spot next last constraint hready hstep hinner ih =>
    have hmem : .within place inner tag ∈ c.rulesAt (spot.site rules native isShallow) :=
      mem_rulesAt_spot hrule
    obtain ⟨hdeep, hfollowsInner⟩ := hfollows.step
    obtain ⟨nextRules, nextNative, hleads, hnext, hgiven⟩ := exists_leadsTo hready hstep hmem hdeep
    have hacceptedNext : ∀ given ∈ nextRules,
        ∃ scope, Compiler.AcceptsIn ⟨types, options⟩ scope given := by
      intro given hmemNext
      obtain ⟨_, _, hwithin, -⟩ := hgiven given hmemNext
      obtain ⟨scope, hscope, -⟩ := acceptsIn_of_within hschema haccepted hwithin
      exact ⟨scope, hscope⟩
    -- The chain itself ends in a constraint on values. Other rules at the next spot are not in the
    -- scope of fields, where alone there are rules on presence.
    have hclearNext : c.IsClear next nextRules := by
      intro given hmemNext found foundTag hresolve
      obtain ⟨_, _, hwithin, rfl | heach⟩ := hgiven given hmemNext
      · rw [hinner.eq_of_resolve hresolve]
        exact Constraint.presence?_of_isViolatedBy hviolated _ _
      · obtain ⟨scope, hscope, hne⟩ := acceptsIn_of_within hschema haccepted hwithin
        exact Constraint.presence?_of_scope (hscope.resolve hresolve).scope_mem (hne heach) _ _
    obtain ⟨violation, hviolation, hfound⟩ :=
      ih hviolated hacceptedNext ⟨inner, hnext, rfl⟩ hclearNext hfollowsInner
    refine ⟨violation, ?_, hfound⟩
    rw [walk_spot hready hclear]
    exact hleads.subset hviolation

/-- What is found at a field of a whole object is among what is found in the object. -/
theorem mem_violations_of_field {body : CompiledStruct} {type : CompiledType} {object : Value}
    {field : CompiledField} {violation : Violation} (hname : c.schema.struct? type.name = some body)
    (hbody : type.body = .struct body) (hfield : field ∈ body.fields)
    (hobject : object.isObject = true)
    (h : violation ∈ c.walk (field.spot object).value
      ((field.spot object).site field.rules field.native field.isOpaque)) :
    violation ∈ type.violations c.schema c.gates object none := by
  -- The object itself is a spot without rules.
  let root : Spot := ⟨object, .root, .struct ⟨false, [type.name]⟩ type.name, false⟩
  have hready : root.IsReady := by
    obtain ⟨members, rfl⟩ := isObject_iff.mp hobject
    exact ⟨rfl, rfl⟩
  have hclear : c.IsClear root [] := fun _ h => (nomatch h)
  have hplan : type.plan = root.plan := by
    rw [CompiledType.plan, hbody]
  rw [CompiledType.violations, hplan]
  change violation ∈ c.walk root.value (root.site [] false false)
  rw [walk_spot hready hclear]
  apply LeadsTo.subset (.field rfl rfl hobject hname hfield)
  change violation ∈ c.walk (field.spot object).value
    ((field.spot object).site field.rules (false || field.native) field.isOpaque)
  rw [Bool.false_or]
  exact h

end Context

theorem Value.isObject_of_member {object : Value} {name : String}
    (h : (object.member name).isNull = false) : object.isObject = true := by
  cases object with
  | object members => rfl
  | _ => cases h

/-- Every chain that the compiler accepts at a field leads to places that its values have. If it is
not cut off, then on creation each value that it leads to and that violates the constraint at its
end is reported, unless the field is forbidden altogether. If it is cut off, leaving it out only
changes what is said of values that do not fit. -/
theorem validate_reports_chain {types : Universe} {options : Options}
    (hok : (compile types options).isOk = true) {name : String} {body : CompiledStruct}
    (hbody : (compile types options).schema.struct? name = some body) {field : CompiledField}
    (hfield : field ∈ body.fields) (htransparent : field.isOpaque = false) {rule : Rule}
    (hrule : rule ∈ field.rules) :
    (compile types options).schema.HasPlaces rule field.plan ∧
    (rule.isCutOff = false → ∀ (gates : GateView) (new : Value) (constraint : Constraint)
      (last : Spot),
      Constraint.forbidden ∉ (activeRules gates field.rules).filterMap Rule.constraint? →
      Context.Selects ⟨(compile types options).schema, gates⟩ rule (field.spot new) constraint
        last →
      constraint.IsViolatedBy last.value →
      ∃ violations, validate (compile types options).schema name gates new none = .ok violations ∧
        ∃ violation ∈ violations, violation.path = last.path ∧
          violation.origin = constraint.origin) ∧
    (rule.isCutOff = true → ∀ (gates : GateView) (before after : List Rule),
      field.rules = before ++ rule :: after → ∀ (value : Value) (site : Site),
      withoutMismatches (Context.walk ⟨(compile types options).schema, gates⟩ value
          (site.field field field.rules false)) =
        withoutMismatches (Context.walk ⟨(compile types options).schema, gates⟩ value
          (site.field field (before ++ after) false))) := by
  obtain ⟨definition, hdefinition⟩ := compilesTo_of_struct? hbody hfield
  have haccepts {given : Rule} (hgiven : given ∈ field.rules) :=
    Compiler.fieldRules_accepts hdefinition.rules hgiven
  refine ⟨?_, ?_, ?_⟩
  · exact hasPlaces_of_accepts hok (haccepts hrule) (Compiler.hasPlan_of_plan hdefinition.plan)
  · intro hreached gates new constraint last hallowed hselects hviolated
    obtain ⟨type, hget, rfl, hstruct⟩ := Schema.get?_of_struct? hbody
    have hready := hselects.isReady
    obtain ⟨hnull, hset⟩ := Bool.or_eq_false_iff.mp hready.present
    have hclear : Context.IsClear ⟨(compile types options).schema, gates⟩ (field.spot new)
        field.rules := by
      intro given hgiven found tag hresolve
      -- Of the rules on presence, only a forbidding one stops a value that is set.
      have hunset : (field.spot new).plan.isUnset (field.spot new).value = false := hset
      rw [hunset]
      apply Constraint.presence?_of_set
      rintro rfl
      exact hallowed (List.mem_filterMap.mpr ⟨_, List.mem_filterMap.mpr ⟨given, hgiven, hresolve⟩,
        rfl⟩)
    have hfollows : Context.Follows rule field.isOpaque := by
      rw [htransparent]
      exact hreached
    obtain ⟨violation, hviolation, hfound⟩ := hselects.exists_violation rfl hviolated
      (fun given hgiven => ⟨_, _, _, haccepts hgiven⟩) ⟨rule, hrule, rfl⟩ hclear hfollows
    obtain ⟨_, hget', hvalidate⟩ :=
      Schema.validate_of_contains (Option.isSome_iff_exists.mpr ⟨type, hget⟩)
    cases hget'.symm.trans hget
    refine ⟨_, hvalidate gates new none, violation, ?_, hfound⟩
    exact Context.mem_violations_of_field hbody hstruct hfield (Value.isObject_of_member hnull)
      hviolation
  · intro hcut gates before after hrules value site
    rw [hrules]
    exact Context.overlooksAt value (site.field field [] false) _ _ rfl (reachedRules_insert hcut)

/-- The cells of a table are short, and so should be the lines of its title. -/
def tableTypes : Universe := Catalog.ofList
  [⟨"Table", [], .struct
      [⟨"Rows", none, .slice (.slice (.scalar .string)),
          ["+k8s:eachVal=+k8s:eachVal=+k8s:maxLength=2"]⟩,
        ⟨"Title", none, .named "Title", ["+k8s:subfield(lines)=+k8s:eachVal=+k8s:maxLength=2"]⟩]⟩,
    ⟨"Title", [], .struct [⟨"Lines", none, .slice (.scalar .string), []⟩]⟩]

/-- A table of one cell, with a title of one line. -/
def tableOf (cell line : String) : Value :=
  .ofMembers [("rows", .array [.array [.string cell]]),
    ("title", .ofMembers [("lines", .array [.string line])])]

/-- What the rows of a table are compiled into. -/
structure CompiledField.IsRows (field : CompiledField) : Prop where
  jsonName : field.jsonName = "rows"
  isOpaque : field.isOpaque = false
  rules : ∃ inner middle outer, field.rules =
    [.within .eachVal (.within .eachVal (.leaf (.maxLength 2) inner) middle) outer]
  plan : ∃ outer inner, field.plan =
    .list outer (.list inner (.scalar ⟨false, []⟩ .string) .atomic) .atomic

/-- The same as a test. -/
def CompiledField.isRows (field : CompiledField) : Bool :=
  match field.rules, field.plan with
  | [.within .eachVal (.within .eachVal (.leaf (.maxLength limit) _) _) _],
    .list _ (.list _ (.scalar access .string) inner) outer =>
    field.jsonName = "rows" ∧ field.isOpaque = false ∧ limit = 2 ∧ access = ⟨false, []⟩ ∧
      inner = .atomic ∧ outer = .atomic
  | _, _ => false

theorem CompiledField.isRows_spec {field : CompiledField} (h : field.isRows = true) :
    field.IsRows := by
  rw [isRows] at h
  split at h
  next hrules hplan =>
    obtain ⟨hname, htransparent, rfl, rfl, rfl, rfl⟩ := of_decide_eq_true h
    exact ⟨hname, htransparent, ⟨_, _, _, hrules⟩, ⟨_, _, hplan⟩⟩
  next => cases h

theorem validate_reports_chain_rows :
    (compile tableTypes .default).isOk = true ∧
      ∃ body field rule, (compile tableTypes .default).schema.struct? "Table" = some body ∧
        field ∈ body.fields ∧ field.isOpaque = false ∧ rule ∈ field.rules ∧
        rule.isCutOff = false ∧
        ∃ violations, validate (compile tableTypes .default).schema "Table" (fun _ => false)
            (tableOf "abc" "x") none = .ok violations ∧
          ∃ violation ∈ violations,
            violation.path = ((Path.root.field "rows").index 0).index 0 ∧
            violation.origin = "maxLength" := by
  have hok : (compile tableTypes .default).isOk = true := by
    decide +kernel
  have hrows : ((compile tableTypes .default).schema.struct? "Table").any
      (fun body => body.fields.any CompiledField.isRows) = true := by
    decide +kernel
  obtain ⟨body, hbody, hrows⟩ := (Option.any_eq_true _ _).mp hrows
  obtain ⟨field, hfield, hrows⟩ := List.any_eq_true.mp hrows
  obtain ⟨hname, htransparent, ⟨inner, middle, outer, hrules⟩, ⟨_, _, hplan⟩⟩ :=
    CompiledField.isRows_spec hrows
  have hrule : .within .eachVal (.within .eachVal (.leaf (.maxLength 2) inner) middle) outer ∈
      field.rules := by
    rw [hrules]
    exact List.mem_singleton_self _
  refine ⟨hok, body, field, _, hbody, hfield, htransparent, hrule, rfl, ?_⟩
  let cell : Spot := ⟨.string "abc", ((Path.root.field "rows").index 0).index 0,
    .scalar ⟨false, []⟩ .string, false⟩
  have hspot : field.spot (tableOf "abc" "x") = ⟨.array [.array [.string "abc"]],
      Path.root.field "rows", field.plan, true⟩ := by
    rw [CompiledField.spot, hname]
    rfl
  refine (validate_reports_chain hok hbody hfield htransparent hrule).2.1 rfl _ _ (.maxLength 2) cell
    ?_ ?_ ?_
  · rw [hrules]
    exact nofun
  · have hfirst (item : Value) : [item][0]? = some item := rfl
    rw [hspot, hplan]
    refine .within ⟨rfl, rfl⟩ (.element rfl rfl (hfirst _)) ?_
    refine .within ⟨rfl, rfl⟩ (.element rfl rfl (hfirst _)) ?_
    exact .here ⟨rfl, rfl⟩
  · change 2 < "abc".utf8ByteSize
    decide

/-- The lines of the title are not looked at, since the rule on them is cut off. -/
example : (validate (compile tableTypes .default).schema "Table" (fun _ => false)
    (tableOf "x" "abc") none).toOption.map List.length = some 0 := by
  decide +kernel

end TaggedSchema
