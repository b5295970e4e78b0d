import TaggedSchema.Proofs.Schema.Compiled
import TaggedSchema.Proofs.Validation.Findings
import TaggedSchema.Proofs.Value.Equality

/-!
# Fields by themselves

What is found at a field of an object and inside it, unions apart, is found by the walks at that
field: from the rules of the type on the field, and from the rules of the field itself. These see
nothing of the other fields, not even whether one of them has changed.
-/

namespace TaggedSchema

/-- What is left of violations without those of unions. -/
def withoutUnions (violations : List Violation) : List Violation :=
  violations.filter fun violation => violation.origin != "union"

/-- The violations at a field of the object at a path and inside the field, without those of
unions. -/
def violationsOfField (object : Path) (jsonName : String) (violations : List Violation) :
    List Violation :=
  withoutUnions (violationsUnder (object.field jsonName) violations)

/-- The earlier objects, if there are any, have the same value in the field. -/
def OldsAgree (jsonName : String) : Option Value → Option Value → Prop :=
  Option.Rel fun old old' => old.isObject = true ∧ old'.isObject = true ∧
    old'.member jsonName = old.member jsonName

theorem OldsAgree.isObject {jsonName : String} {old old' : Option Value}
    (h : OldsAgree jsonName old old') : (∀ earlier ∈ old, earlier.isObject = true) ∧
      ∀ earlier ∈ old', earlier.isObject = true := by
  cases h with
  | none => exact ⟨nofun, nofun⟩
  | some h =>
    exact ⟨fun _ heq => Option.some.inj heq ▸ h.1, fun _ heq => Option.some.inj heq ▸ h.2.1⟩

section

variable {object : Path} {jsonName : String}

theorem violationsOfField_append (first second : List Violation) :
    violationsOfField object jsonName (first ++ second) =
      violationsOfField object jsonName first ++ violationsOfField object jsonName second := by
  simp only [violationsOfField, withoutUnions, violationsUnder, List.filter_append]

theorem violationsOfField_flatMap_congr {α : Type} {l : List α} {f g : α → List Violation}
    (h : ∀ a ∈ l, violationsOfField object jsonName (f a) =
      violationsOfField object jsonName (g a)) :
    violationsOfField object jsonName (l.flatMap f) =
      violationsOfField object jsonName (l.flatMap g) := by
  simp only [violationsOfField, withoutUnions, violationsUnder, List.filter_flatMap]
  exact List.flatMap_congr h

theorem violationsOfField_eq_nil {violations : List Violation}
    (h : ∀ violation ∈ violations, (object.field jsonName).segments <+: violation.path.segments →
      violation.origin = "union") : violationsOfField object jsonName violations = [] := by
  rw [violationsOfField, withoutUnions, violationsUnder, List.filter_filter, List.filter_eq_nil_iff]
  intro violation hviolation hkept
  obtain ⟨horigin, hunder⟩ := Bool.and_eq_true_iff.mp hkept
  exact bne_iff_ne.mp horigin (h violation hviolation (Path.startsWith_iff.mp hunder))

/-- A path that ends at the object leads to no field of it. -/
theorem not_under_field {path : Path} (h : path = object) :
    ¬ (object.field jsonName).segments <+: path.segments :=
  h ▸ object.not_under_extend (.field jsonName)

end

namespace Context

variable (c : Context)

/-- What a rule of a struct finds at one of the fields, by a walk over the value of the field. -/
def ruleFieldViolations (site : Site) (body : CompiledStruct) (jsonName : String) (value : Value) :
    Rule → List Violation
  | .within (.subfield name) inner _ =>
    if name = jsonName then
      match body.field? jsonName with
      | some field => c.walk value (site.field field [inner] true)
      | none => []
    else []
  | _ => []

/-- What is found at one of the fields of a struct by the walks over its value. -/
def fieldViolations (site : Site) (body : CompiledStruct) (jsonName : String) (value : Value) :
    List Violation :=
  (c.rulesAt site).flatMap (c.ruleFieldViolations site body jsonName value) ++
    body.fields.flatMap fun field =>
      if field.jsonName = jsonName then
        c.walk value (site.field field field.rules field.isOpaque)
      else []

variable {c} {value : Value} {site : Site} {access : Access} {type jsonName : String}
variable {body : CompiledStruct}

/-- Walks at other fields find nothing at this one. -/
theorem violationsOfField_other {field : CompiledField} {rules : List Rule} {isShallow : Bool}
    (hother : field.jsonName ≠ jsonName) :
    violationsOfField site.path jsonName (c.walk value (site.field field rules isShallow)) =
      [] := by
  apply violationsOfField_eq_nil
  intro violation hviolation hunder
  have hfield := segment_unique hunder (walk_under hviolation)
  cases hfield
  exact absurd rfl hother

theorem ruleViolations_ofField (hplan : site.plan = .struct access type)
    (hbody : c.schema.struct? type = some body) (hobject : value.isObject = true) (rule : Rule) :
    violationsOfField site.path jsonName (c.ruleViolations value site rule) =
      violationsOfField site.path jsonName
        (c.ruleFieldViolations site body jsonName (value.member jsonName) rule) := by
  obtain ⟨members, rfl⟩ := isObject_iff.mp hobject
  cases rule with
  | leaf constraint tag =>
    apply violationsOfField_eq_nil
    intro violation hviolation hunder
    obtain ⟨found, hbreach, rfl⟩ := Option.map_eq_some_iff.mp (Option.mem_toList.mp hviolation)
    rw [Violation.nativeIf_path] at hunder
    exact absurd hunder (not_under_field (Constraint.isAt_of_breach? hbreach).path)
  | guarded condition inner tag => rfl
  | within place inner tag =>
    cases place with
    | subfield name =>
      simp only [ruleViolations, placeViolations, hplan, hbody, Option.bind_some,
        ruleFieldViolations]
      split
      next field hfield =>
        have hname : field.jsonName = name := CompiledStruct.jsonName_of_field? hfield
        split
        next heq =>
          subst heq
          rw [hfield]
        next hne => exact violationsOfField_other (hname ▸ hne)
      next hfield =>
        split
        next heq =>
          subst heq
          rw [hfield]
        next => rfl
    | _ => simp only [ruleViolations, placeViolations, hplan, ruleFieldViolations]

theorem structViolations_ofField :
    violationsOfField site.path jsonName (c.structViolations value site body) =
      violationsOfField site.path jsonName (body.fields.flatMap fun field =>
        if field.jsonName = jsonName then
          c.walk (value.member jsonName) (site.field field field.rules field.isOpaque)
        else []) := by
  have hunions : violationsOfField site.path jsonName
      ((body.unionViolations site.path value site.existing).map
        fun violation => violation.nativeIf site.native) = [] := by
    apply violationsOfField_eq_nil
    intro violation hviolation hunder
    obtain ⟨found, hfound, rfl⟩ := List.mem_map.mp hviolation
    rw [Violation.nativeIf_path] at hunder
    rw [Violation.nativeIf_origin]
    rcases CompiledStruct.mem_unionViolations hfound with hat | ⟨horigin, -⟩
    · exact absurd hunder (not_under_field hat.path)
    · exact horigin
  rw [structViolations, violationsOfField_append, hunions, List.append_nil]
  apply violationsOfField_flatMap_congr
  intro field _
  split
  next heq => rw [heq]
  next hne => exact violationsOfField_other hne

/-- Of a checked object, a field has the violations that the walks at the field find. -/
theorem checkedViolations_ofField (hdeep : site.isShallow = false)
    (hplan : site.plan = .struct access type) (hbody : c.schema.struct? type = some body)
    (hobject : value.isObject = true) :
    violationsOfField site.path jsonName (c.checkedViolations value site) =
      violationsOfField site.path jsonName
        (c.fieldViolations site body jsonName (value.member jsonName)) := by
  have hinside : c.insideViolations value site (c.rulesAt site) =
      c.structViolations value site body := by
    obtain ⟨members, rfl⟩ := isObject_iff.mp hobject
    simp only [insideViolations, hplan, hbody]
  rw [checkedViolations, hdeep, if_neg Bool.false_ne_true, hinside, violationsOfField_append,
    structViolations_ofField, fieldViolations, violationsOfField_append]
  congr 1
  apply violationsOfField_flatMap_congr
  intro rule _
  exact ruleViolations_ofField hplan hbody hobject rule

/-- The walks at a field find nothing if the field has not changed. -/
theorem fieldViolations_of_unchanged {old : Value} (hold : site.existing = some old)
    (hsame : (value == old.member jsonName) = true) :
    c.fieldViolations site body jsonName value = [] := by
  have hwalk {field : CompiledField} (hname : field.jsonName = jsonName) (rules : List Rule)
      (isShallow : Bool) : c.walk value (site.field field rules isShallow) = [] := by
    have hunchanged : (site.field field rules isShallow).isUnchanged value = true := by
      simpa [Site.isUnchanged, Site.field, hold, hname] using hsame
    have hcourse : c.Course value (site.field field rules isShallow) [] := .unchanged hunchanged
    exact hcourse.walk_eq
  rw [fieldViolations, List.append_eq_nil_iff, List.flatMap_eq_nil_iff, List.flatMap_eq_nil_iff]
  constructor
  · intro rule _
    unfold ruleFieldViolations
    split
    next name inner tag =>
      split
      next =>
        split
        next field hfield =>
          have hname : field.jsonName = jsonName := CompiledStruct.jsonName_of_field? hfield
          exact hwalk hname _ _
        next => rfl
      next => rfl
    next => rfl
  · intro field _
    split
    next hname => exact hwalk hname _ _
    next => rfl

theorem existing_root {plan : Plan} {old : Value} (h : old.isObject = true) :
    (Site.root plan (some old)).existing = some old := by
  obtain ⟨members, rfl⟩ := isObject_iff.mp h
  rfl

theorem fieldViolations_root_congr {plan : Plan} {old old' : Option Value}
    (h : OldsAgree jsonName old old') :
    c.fieldViolations (.root plan old') body jsonName value =
      c.fieldViolations (.root plan old) body jsonName value := by
  have hfield {field : CompiledField} (hname : field.jsonName = jsonName) (rules : List Rule)
      (isShallow : Bool) : (Site.root plan old').field field rules isShallow =
        (Site.root plan old).field field rules isShallow := by
    cases h with
    | none => rfl
    | @some old old' hsome =>
      obtain ⟨hobject, hobject', hsame⟩ := hsome
      simp only [Site.field, existing_root hobject, existing_root hobject', Option.map_some, hname,
        hsame]
      rfl
  have hrule (rule : Rule) :
      c.ruleFieldViolations (.root plan old') body jsonName value rule =
        c.ruleFieldViolations (.root plan old) body jsonName value rule := by
    unfold ruleFieldViolations
    split
    next name inner tag =>
      cases hget : body.field? jsonName with
      | none => rfl
      | some field =>
        have hname : field.jsonName = jsonName := CompiledStruct.jsonName_of_field? hget
        simp only [hfield hname]
    next => rfl
  have hrules : c.rulesAt (.root plan old') = c.rulesAt (.root plan old) := rfl
  rw [fieldViolations, fieldViolations, hrules]
  congr 1
  · exact List.flatMap_congr fun rule _ => hrule rule
  · apply List.flatMap_congr
    intro field _
    split
    next hname => rw [hfield hname]
    next => rfl

/-- Whether the whole object is looked at or not, a field has the violations that the walks at the
field find. -/
theorem walk_root_ofField {plan : Plan} {old : Option Value} (hplan : plan = .struct access type)
    (hbody : c.schema.struct? type = some body) (hobject : value.isObject = true)
    (hold : ∀ earlier ∈ old, earlier.isObject = true) :
    violationsOfField .root jsonName (c.walk value (.root plan old)) =
      violationsOfField .root jsonName
        (c.fieldViolations (.root plan old) body jsonName (value.member jsonName)) := by
  generalize hfound : c.walk value (.root plan old) = found
  have hcourse : c.Course value (.root plan old) found := hfound ▸ c.course value _
  cases hcourse with
  | unchanged hsame =>
    cases old with
    | none => cases hsame
    | some earlier =>
      rw [fieldViolations_of_unchanged (existing_root (hold earlier rfl))
        (Value.member_beq hsame jsonName)]
  | @blocked hchanged violation hblocked =>
    -- There are no rules at a whole object itself.
    have hnone : (Site.root plan old).blocked? value [] = some violation := hblocked
    rw [Site.blocked?_nil] at hnone
    cases hnone
  | absent hchanged hclear habsent =>
    obtain ⟨members, rfl⟩ := isObject_iff.mp hobject
    cases habsent
  | unfit hchanged hclear hpresent hunfit =>
    obtain ⟨members, rfl⟩ := isObject_iff.mp hobject
    rw [Site.root, hplan] at hunfit
    cases hunfit
  | checked hchanged hclear hpresent hfits =>
    have hroot : (Site.root plan old).plan = .struct access type := hplan
    exact checkedViolations_ofField rfl hroot hbody hobject

end Context

/-- A field in which two objects of a struct have the same value, and had the same value before if
they are updated, has the same violations in both, but for those of unions. It does not matter what
the other fields are. -/
theorem validate_field_congr {schema : Schema} {name : String} {body : CompiledStruct}
    (hstruct : schema.struct? name = some body) (gates : GateView) {a b : Value}
    (ha : a.isObject = true) (hb : b.isObject = true) {jsonName : String}
    (hsame : b.member jsonName = a.member jsonName) {old old' : Option Value}
    (hold : OldsAgree jsonName old old') :
    ∃ found found', validate schema name gates a old = .ok found ∧
      validate schema name gates b old' = .ok found' ∧
      violationsOfField .root jsonName found' = violationsOfField .root jsonName found := by
  obtain ⟨type, htype, hname, htypeBody⟩ := Schema.get?_of_struct? hstruct
  have hplan : type.plan = .struct ⟨false, [type.name]⟩ name := by
    rw [CompiledType.plan, htypeBody, hname]
  have hknown : schema.contains name = true := Option.isSome_iff_exists.mpr ⟨type, htype⟩
  obtain ⟨type', htype', hvalidate⟩ := Schema.validate_of_contains hknown
  cases htype.symm.trans htype'
  obtain ⟨hobject, hobject'⟩ := hold.isObject
  have hwalk : violationsOfField .root jsonName (type.violations schema gates a old) = _ :=
    Context.walk_root_ofField hplan hstruct ha hobject
  have hwalk' : violationsOfField .root jsonName (type.violations schema gates b old') = _ :=
    Context.walk_root_ofField hplan hstruct hb hobject'
  refine ⟨_, _, hvalidate gates a old, hvalidate gates b old', ?_⟩
  rw [hwalk, hwalk', hsame, Context.fieldViolations_root_congr hold]

/-- The titles of tasks are short, and not all of them are allowed. -/
def taskTypes : Universe := Catalog.ofList
  [⟨"Task", ["+k8s:subfield(title)=+k8s:neq=later"], .struct
    [⟨"Title", none, .scalar .string, ["+k8s:maxLength=3"]⟩,
      ⟨"Done", none, .scalar .bool, ["+k8s:immutable"]⟩]⟩]

def taskOf (title : String) (done : Bool) : Value :=
  .ofMembers [("title", .string title), ("done", .bool done)]

/-- Of two tasks that are renamed, one is done as well, which it should not be. -/
theorem validate_field_congr_task :
    ∃ body, (compile taskTypes .default).schema.struct? "Task" = some body ∧
      (taskOf "later" false).isObject = true ∧ (taskOf "later" true).isObject = true ∧
      (taskOf "later" true).member "title" = (taskOf "later" false).member "title" ∧
      OldsAgree "title" (some (taskOf "now" false)) (some (taskOf "now" false)) ∧
      ∃ found found', found.length = 2 ∧ found'.length = 3 ∧
        validate (compile taskTypes .default).schema "Task" (fun _ => false)
          (taskOf "later" false) (some (taskOf "now" false)) = .ok found ∧
        validate (compile taskTypes .default).schema "Task" (fun _ => false)
          (taskOf "later" true) (some (taskOf "now" false)) = .ok found' ∧
        violationsOfField .root "title" found' = violationsOfField .root "title" found := by
  have hknown : ((compile taskTypes .default).schema.struct? "Task").isSome = true := by
    decide +kernel
  obtain ⟨body, hstruct⟩ := Option.isSome_iff_exists.mp hknown
  have hold : OldsAgree "title" (some (taskOf "now" false)) (some (taskOf "now" false)) :=
    .some ⟨rfl, rfl, rfl⟩
  obtain ⟨found, found', hfound, hfound', hsame⟩ := validate_field_congr hstruct
    (fun _ => false) (a := taskOf "later" false) (b := taskOf "later" true) rfl rfl rfl hold
  have hlength : (validate (compile taskTypes .default).schema "Task" (fun _ => false)
      (taskOf "later" false) (some (taskOf "now" false))).toOption.map List.length = some 2 := by
    decide +kernel
  have hlength' : (validate (compile taskTypes .default).schema "Task" (fun _ => false)
      (taskOf "later" true) (some (taskOf "now" false))).toOption.map List.length = some 3 := by
    decide +kernel
  rw [hfound] at hlength
  rw [hfound'] at hlength'
  exact ⟨body, hstruct, rfl, rfl, rfl, hold, found, found', Option.some.inj hlength,
    Option.some.inj hlength', hfound, hfound', hsame⟩

end TaggedSchema
