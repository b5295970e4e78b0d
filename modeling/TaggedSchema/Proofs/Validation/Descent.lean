import Mathlib.Data.List.Basic
import TaggedSchema.Proofs.Schema.Compiled
import TaggedSchema.Proofs.Value.Inside
import TaggedSchema.Validation.Walk

/-!
# How a walk descends

The walk at a value in terms of the walks at the values inside it, each at a site of its own. What
is said of a whole walk is proved from this equation, from the inside of the value out.
-/

namespace TaggedSchema

@[simp]
theorem Violation.nativeIf_path (violation : Violation) (native : Bool) :
    (violation.nativeIf native).path = violation.path := by
  cases native <;> rfl

@[simp]
theorem Violation.nativeIf_kind (violation : Violation) (native : Bool) :
    (violation.nativeIf native).kind = violation.kind := by
  cases native <;> rfl

@[simp]
theorem Violation.nativeIf_origin (violation : Violation) (native : Bool) :
    (violation.nativeIf native).origin = violation.origin := by
  cases native <;> rfl

/-- The item that a selector chooses, with its path in the list. A missing one is null. -/
def selectedItem (list : Path) (semantics : ListSemantics) (selector : ItemSelector)
    (items : List Value) : Path × Value :=
  match items.zipIdx.find? fun (item, _) => selector.selects item with
  | some (item, position) => (semantics.elementPath list position item, item)
  | none => (list.key selector.identity, .null)

/-- What is selected by key fields is an object. -/
theorem ItemSelector.isObject_of_selects {selector : ItemSelector} {item : Value}
    (hsome : selector.keys ≠ []) (h : selector.selects item = true) : item.isObject = true := by
  obtain ⟨entry, hentry⟩ := List.exists_mem_of_ne_nil _ hsome
  have hmember := List.all_eq_true.mp h _ hentry
  cases item with
  | object members => rfl
  | _ => cases hmember

theorem selectedItem_liesIn (list : Path) (semantics : ListSemantics) (selector : ItemSelector)
    (items : List Value) :
    (selectedItem list semantics selector items).2.LiesIn (.array items) := by
  rw [selectedItem]
  split
  next item position hfind =>
    have hmem := List.mem_of_find?_eq_some hfind
    exact .item (List.fst_mem_of_mem_zipIdx hmem)
  next => exact .missingItem items

namespace Site

/-- The site of an element of a list. -/
def element (site : Site) (element : Plan) (semantics : ListSemantics) (rules : List Rule)
    (position : Nat) (item : Value) : Site :=
  site.inner (semantics.elementPath site.path position item) element rules
    ((site.old.bind Value.items?).bind fun earlier => semantics.counterpart? earlier item)

/-- The site of a value of a map. -/
def entry (site : Site) (value : Plan) (rules : List Rule) (name : String) : Site :=
  site.inner (site.path.key name) value rules (site.old.bind fun old => old.member? name)

/-- The site of a key of a map. -/
def mapKey (site : Site) (key : Plan) (rules : List Rule) (name : String) : Site :=
  site.inner (site.path.key name) key rules none

/-- A change is rejected by one of the constraints. -/
theorem exists_of_rejection? {site : Site} {value : Value} {rules : List Constraint}
    {violation : Violation} (h : site.rejection? value rules = some violation) :
    ∃ constraint ∈ rules, ∃ change detail, constraint.rejection? change = some detail ∧
      violation = .forbidden site.path detail constraint.origin := by
  simp only [rejection?, Option.bind_eq_bind, Option.bind_eq_some_iff] at h
  obtain ⟨old, -, change, -, h⟩ := h
  obtain ⟨constraint, hmem, h⟩ := List.exists_of_findSome?_eq_some h
  obtain ⟨detail, hdetail, heq⟩ := Option.map_eq_some_iff.mp h
  exact ⟨constraint, hmem, change, detail, hdetail, heq.symm⟩

end Site

namespace Context

variable (c : Context)

/-! ## The places inside a value -/

/-- What a rule finds at another place than the value itself. -/
def placeViolations (value : Value) (site : Site) (place : Place) (rule : Rule) :
    List Violation :=
  match place, site.plan, value with
  | .subfield name, .struct _ type, .object _ =>
    match (c.schema.struct? type).bind fun body => body.field? name with
    | some field => c.walk (value.member name) (site.field field [rule] true)
    | none => []
  | .item selector, .list _ element semantics, .array items =>
    let selected := selectedItem site.path semantics selector items
    c.walk selected.2 (site.item selected.1 selector element rule)
  | _, _, _ => []

def structViolations (value : Value) (site : Site) (body : CompiledStruct) : List Violation :=
  body.fields.flatMap (fun field => c.walk (value.member field.jsonName)
      (site.field field field.rules field.isOpaque)) ++
    (body.unionViolations site.path value site.existing).map
      fun violation => violation.nativeIf site.native

def listViolations (items : List Value) (site : Site) (element : Plan)
    (semantics : ListSemantics) (rules : List Rule) : List Violation :=
  (if semantics.checksUniqueness then semantics.duplicates site.path items else []).map
      (fun violation => violation.nativeIf site.native) ++
    items.zipIdx.flatMap fun (item, position) =>
      c.walk item (site.element element semantics rules position item)

/-- What is found at a key, which is looked at when it is new. -/
def keyViolations (site : Site) (key : Plan) (rules : List Rule) (name : String) :
    List Violation :=
  if (site.old.bind fun old => old.member? name).isSome ||
      rules.isEmpty && key.access.named.isEmpty then []
  else c.walk (key.keyValue name) (site.mapKey key rules name)

def mapViolations (members : List (String × Value)) (site : Site) (key value : Plan)
    (keyRules valueRules : List Rule) : List Violation :=
  members.flatMap fun (name, entry) =>
    c.keyViolations site key keyRules name ++ c.walk entry (site.entry value valueRules name)

/-- What is found inside a value by its plan. -/
def insideViolations (value : Value) (site : Site) (rules : List Rule) : List Violation :=
  match site.plan, value with
  | .struct _ name, .object _ =>
    match c.schema.struct? name with
    | some body => c.structViolations value site body
    | none => []
  | .list _ element semantics, .array items =>
    c.listViolations items site element semantics (rulesWithin Place.isEachVal rules)
  | .map _ key entry, .object members =>
    c.mapViolations members site key entry (rulesWithin Place.isEachKey rules)
      (rulesWithin Place.isEachVal rules)
  | _, _ => []

theorem isObject_iff {value : Value} :
    value.isObject = true ↔ ∃ members, value = .object members := by
  cases value with
  | object members => exact ⟨fun _ => ⟨members, rfl⟩, fun _ => rfl⟩
  | _ => exact ⟨fun h => (nomatch h), fun ⟨_, h⟩ => (nomatch h)⟩

/-! ## The equation of the walk -/

theorem memberNode_eq (members : List (String × Value)) (name : String) :
    c.memberNode (c.memberNodes members) name =
      ⟨(Value.object members).member name, c.walk ((Value.object members).member name)⟩ := by
  simp only [memberNodes_eq_map, memberNode, Value.member, Value.member?, Catalog.findEntry,
    List.find?_map, Function.comp_def]
  cases members.find? fun entry => entry.1 == name with
  | none => rfl
  | some entry => rfl

theorem selectedNode_eq (list : Path) (semantics : ListSemantics) (selector : ItemSelector)
    (items : List Value) :
    c.selectedNode list semantics selector (c.itemNodes items) =
      ((selectedItem list semantics selector items).1,
        ⟨(selectedItem list semantics selector items).2,
          c.walk (selectedItem list semantics selector items).2⟩) := by
  simp only [itemNodes_eq_map, selectedNode, selectedItem, List.zipIdx_map, List.find?_map,
    Function.comp_def, Prod.map]
  cases items.zipIdx.find? fun entry => selector.selects entry.1 with
  | none => rfl
  | some entry => rfl

theorem walkScalar_eq {value : Value} (h : value.isScalar = true) :
    c.walkScalar value = c.walk value := by
  cases value with
  | array items => cases h
  | object members => cases h
  | _ => rfl

theorem keyValue_isScalar (plan : Plan) (key : String) : (plan.keyValue key).isScalar = true := by
  have hofInt (number : Option Int) :
      ((number.map Value.ofInt).getD (.string key)).isScalar = true := by
    cases number <;> rfl
  cases plan with
  | scalar access kind =>
    cases kind with
    | string => rfl
    | int => exact hofInt _
    | uint => exact hofInt _
    | float =>
      simp only [Plan.keyValue, ScalarKind.ofKey?]
      cases Double.decimal? key.toList <;> rfl
    | bool =>
      simp only [Plan.keyValue, ScalarKind.ofKey?]
      split
      · rfl
      · split <;> rfl
  | _ => rfl

theorem walkPlace_object (members : List (String × Value)) :
    c.walkPlace (.members (c.memberNodes members)) = c.placeViolations (.object members) := by
  funext site place rule
  cases place with
  | subfield name =>
    cases hplan : site.plan with
    | struct access type =>
      cases hfield : (c.schema.struct? type).bind fun body => body.field? name with
      | none => simp only [walkPlace, placeViolations, hplan, hfield]
      | some field => simp only [walkPlace, placeViolations, hplan, hfield, memberNode_eq]
    | _ => simp only [walkPlace, placeViolations, hplan]
  | _ => cases hplan : site.plan <;> simp only [walkPlace, placeViolations, hplan]

theorem walkPlace_array (items : List Value) :
    c.walkPlace (.items (c.itemNodes items)) = c.placeViolations (.array items) := by
  funext site place rule
  cases place with
  | item selector =>
    cases hplan : site.plan with
    | list access element semantics =>
      simp only [walkPlace, placeViolations, hplan, selectedNode_eq]
    | _ => simp only [walkPlace, placeViolations, hplan]
  | _ => cases hplan : site.plan <;> simp only [walkPlace, placeViolations, hplan]

theorem walkFields_eq (members : List (String × Value)) (site : Site) (body : CompiledStruct) :
    c.walkFields (.object members) (c.memberNodes members) site body =
      c.structViolations (.object members) site body := by
  simp only [walkFields, structViolations, memberNode_eq]

theorem walkItems_eq (items : List Value) (site : Site) (element : Plan)
    (semantics : ListSemantics) (rules : List Rule) :
    walkItems (c.itemNodes items) site element semantics rules =
      c.listViolations items site element semantics rules := by
  simp only [walkItems, listViolations, itemNodes_eq_map, List.map_map, Function.comp_def,
    List.map_id', List.zipIdx_map, List.flatMap_map, Prod.map, Site.element, id]

theorem walkEntries_eq (members : List (String × Value)) (site : Site) (key value : Plan)
    (keyRules valueRules : List Rule) :
    c.walkEntries (c.memberNodes members) site key value keyRules valueRules =
      c.mapViolations members site key value keyRules valueRules := by
  simp only [walkEntries, mapViolations, keyViolations, memberNodes_eq_map, List.flatMap_map,
    Site.entry, Site.mapKey, c.walkScalar_eq (keyValue_isScalar _ _)]

theorem walkInside_object (members : List (String × Value)) :
    c.walkInside (.object members) (.members (c.memberNodes members)) =
      c.insideViolations (.object members) := by
  funext site rules
  cases hplan : site.plan with
  | struct access name =>
    cases hbody : c.schema.struct? name with
    | none => simp only [walkInside, insideViolations, hplan, hbody]
    | some body => simp only [walkInside, insideViolations, hplan, hbody, walkFields_eq]
  | map access key value => simp only [walkInside, insideViolations, hplan, walkEntries_eq]
  | _ => simp only [walkInside, insideViolations, hplan]

theorem walkInside_array (items : List Value) :
    c.walkInside (.array items) (.items (c.itemNodes items)) =
      c.insideViolations (.array items) := by
  funext site rules
  cases hplan : site.plan <;> simp only [walkInside, insideViolations, hplan, walkItems_eq]

theorem walkScalar_eq_walkWith {value : Value} (h : value.isScalar = true) :
    c.walkScalar value =
      c.walkWith value (c.placeViolations value) (c.insideViolations value) := by
  -- Places and plans of scalars lead nowhere.
  have hplace : (fun _ _ _ => []) = c.placeViolations value := by
    funext site place rule
    cases value with
    | array items => cases h
    | object members => cases h
    | _ => cases place <;> cases hplan : site.plan <;> simp only [placeViolations, hplan]
  have hinside : (fun _ _ => []) = c.insideViolations value := by
    funext site rules
    cases value with
    | array items => cases h
    | object members => cases h
    | _ => cases hplan : site.plan <;> simp only [insideViolations, hplan]
  rw [walkScalar, hplace, hinside]

/-- The walk at a value goes on at the values inside it. -/
theorem walk_eq (value : Value) :
    c.walk value = c.walkWith value (c.placeViolations value) (c.insideViolations value) := by
  cases value with
  | array items => rw [walk, walkAt, walkPlace_array, walkInside_array]
  | object members => rw [walk, walkAt, walkPlace_object, walkInside_object]
  | _ => exact c.walkScalar_eq_walkWith rfl

/-! ## The course of a walk at one value -/

/-- The constraints at a site that are active. -/
def ownConstraints (site : Site) : List Constraint :=
  (activeRules c.gates site.rules).filterMap Rule.constraint?

/-- The active rules at a site, with those that its plan borrows from named types. -/
def rulesAt (site : Site) : List Rule :=
  if site.isShallow then activeRules c.gates site.rules
  else activeRules c.gates site.rules ++ c.lentRules site.plan.access.named

/-- The rules at a site as the site itself or a named type has them, with their conditions. -/
inductive GivenAt (site : Site) : Rule → Prop
  | own {rule : Rule} (hrule : rule ∈ site.rules) : GivenAt site rule
  | lent {name : String} {type : CompiledType} {rule : Rule}
      (hname : name ∈ site.plan.access.named) (htype : c.schema.get? name = some type)
      (hrule : rule ∈ type.rules) : GivenAt site rule

variable {c} in
theorem exists_givenAt {site : Site} {active : Rule} (h : active ∈ c.rulesAt site) :
    ∃ rule, c.GivenAt site rule ∧ rule.resolve c.gates = some active := by
  have hown (h : active ∈ activeRules c.gates site.rules) :
      ∃ rule, c.GivenAt site rule ∧ rule.resolve c.gates = some active := by
    obtain ⟨rule, hrule, hresolve⟩ := List.mem_filterMap.mp h
    exact ⟨rule, .own hrule, hresolve⟩
  rw [rulesAt] at h
  split at h
  next => exact hown h
  next =>
    rcases List.mem_append.mp h with h | h
    · exact hown h
    · obtain ⟨name, hname, h⟩ := List.mem_flatMap.mp h
      split at h
      next type htype =>
        obtain ⟨rule, hrule, hresolve⟩ := List.mem_filterMap.mp h
        exact ⟨rule, .lent hname htype hrule, hresolve⟩
      next => cases h

/-- What one active rule finds. -/
def ruleViolations (value : Value) (site : Site) : Rule → List Violation
  | .leaf constraint _ =>
    ((constraint.breach? c.gates site.path value).map
      fun violation => violation.nativeIf site.native).toList
  | .within place inner _ => c.placeViolations value site place inner
  | .guarded .. => []

/-- What is found at a value that is present and fits. -/
def checkedViolations (value : Value) (site : Site) : List Violation :=
  (c.rulesAt site).flatMap (c.ruleViolations value site) ++
    if site.isShallow then [] else c.insideViolations value site (c.rulesAt site)

/-- How far a walk gets at a value, and what it finds. -/
inductive Course (value : Value) (site : Site) : List Violation → Prop where
  | unchanged (hsame : site.isUnchanged value = true) : Course value site []
  | blocked (hchanged : site.isUnchanged value = false) {violation : Violation}
      (hblocked : site.blocked? value (c.ownConstraints site) = some violation) :
      Course value site [violation.nativeIf site.native]
  | absent (hchanged : site.isUnchanged value = false)
      (hclear : site.blocked? value (c.ownConstraints site) = none)
      (habsent : (value.isNull || site.isField && site.plan.isUnset value) = true) :
      Course value site []
  | unfit (hchanged : site.isUnchanged value = false)
      (hclear : site.blocked? value (c.ownConstraints site) = none)
      (hpresent : (value.isNull || site.isField && site.plan.isUnset value) = false)
      (hunfit : site.plan.fits value = false) :
      Course value site
        [(site.mismatch value ((c.rulesAt site).filterMap Rule.constraint?)).nativeIf site.native]
  | checked (hchanged : site.isUnchanged value = false)
      (hclear : site.blocked? value (c.ownConstraints site) = none)
      (hpresent : (value.isNull || site.isField && site.plan.isUnset value) = false)
      (hfits : site.plan.fits value = true) :
      Course value site (c.checkedViolations value site)

/-- The walk looks at the value: it is not the earlier one, no rule on change or presence ends the
walk, and the value is there. -/
structure LooksAt (value : Value) (site : Site) : Prop where
  changed : site.isUnchanged value = false
  clear : site.blocked? value (c.ownConstraints site) = none
  present : (value.isNull || site.isField && site.plan.isUnset value) = false

theorem walkWith_fits (value : Value) (site : Site) :
    (if site.isShallow then (c.rulesAt site).flatMap (c.ruleViolations value site)
      else (c.rulesAt site).flatMap (c.ruleViolations value site) ++
        c.insideViolations value site (c.rulesAt site)) = c.checkedViolations value site := by
  rw [checkedViolations]
  split
  · rw [List.append_nil]
  · rfl

/-- A walk takes one of the courses. -/
theorem course (value : Value) (site : Site) : c.Course value site (c.walk value site) := by
  rw [walk_eq]
  cases hsame : site.isUnchanged value with
  | true =>
    simp only [walkWith, hsame, if_true]
    exact .unchanged hsame
  | false =>
    cases hblocked : site.blocked? value (c.ownConstraints site) with
    | some violation =>
      have hown := hblocked
      rw [ownConstraints] at hown
      simp only [walkWith, hsame, hown, Bool.false_eq_true, if_false]
      exact .blocked hsame hblocked
    | none =>
      have hown := hblocked
      rw [ownConstraints] at hown
      cases habsent : value.isNull || site.isField && site.plan.isUnset value with
      | true =>
        simp only [walkWith, hsame, hown, habsent, Bool.false_eq_true, if_false, if_true]
        exact .absent hsame hblocked habsent
      | false =>
        cases hfits : site.plan.fits value with
        | true =>
          simp only [walkWith, hsame, hown, habsent, hfits, Bool.false_eq_true, if_false, if_true]
          change c.Course value site
            (if site.isShallow then (c.rulesAt site).flatMap (c.ruleViolations value site)
            else (c.rulesAt site).flatMap (c.ruleViolations value site) ++
              c.insideViolations value site (c.rulesAt site))
          rw [walkWith_fits]
          exact .checked hsame hblocked habsent hfits
        | false =>
          simp only [walkWith, hsame, hown, habsent, hfits, Bool.false_eq_true, if_false]
          exact .unfit hsame hblocked habsent hfits

namespace Course

variable {c} {value : Value} {site : Site} {found found' : List Violation}

theorem unique (h : c.Course value site found) (h' : c.Course value site found') :
    found = found' := by
  cases h <;> cases h' <;> simp_all

/-- The course determines what is found. -/
theorem walk_eq (h : c.Course value site found) : c.walk value site = found :=
  (c.course value site).unique h

end Course

end Context

/-- Every type of a schema validates. -/
theorem Schema.validate_of_contains {schema : Schema} {name : String}
    (hknown : schema.contains name = true) :
    ∃ type, schema.get? name = some type ∧ ∀ gates new old,
      validate schema name gates new old = .ok (type.violations schema gates new old) := by
  obtain ⟨type, htype⟩ := Option.isSome_iff_exists.mp hknown
  refine ⟨type, htype, ?_⟩
  intro gates new old
  rw [validate, Schema.type, htype]
  rfl

/-- So does every struct, by a walk over the whole object. -/
theorem Schema.validate_of_struct? {schema : Schema} {name : String} {body : CompiledStruct}
    (hbody : schema.struct? name = some body) (gates : GateView) (new : Value)
    (old : Option Value) :
    validate schema name gates new old =
      .ok (Context.walk ⟨schema, gates⟩ new (.root (.struct ⟨false, [name]⟩ name) old)) := by
  obtain ⟨type, htype, hname, htypeBody⟩ := Schema.get?_of_struct? hbody
  have hplan : type.plan = .struct ⟨false, [name]⟩ name := by
    rw [CompiledType.plan, htypeBody, hname]
  rw [validate, Schema.type, htype, ← hplan]
  rfl

end TaggedSchema
