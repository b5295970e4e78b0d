import TaggedSchema.Proofs.Validation.Fields
import TaggedSchema.Proofs.Validation.Native

/-!
# Fields at which a walk stops

A rule on presence or change that is broken ends the walk, and so does a value that does not fit.
A field is met by a walk of its own and by one for each rule that its struct has on it, so that a
walk that ends says nothing about the others.
-/

namespace TaggedSchema

/-- The place is the field with this name. -/
def Place.isSubfield (jsonName : String) : Place → Bool
  | subfield name => name == jsonName
  | _ => false

/-- The rule applies at a field. -/
def Rule.isOnSubfield : Rule → Bool
  | within (.subfield _) _ _ => true
  | _ => false

/-! ## Violations of a field -/

section

variable {object : Path} {jsonName : String} {violations : List Violation} {violation : Violation}

theorem mem_violationsOfField_iff :
    violation ∈ violationsOfField object jsonName violations ↔
      violation ∈ violations ∧ (object.field jsonName).segments <+: violation.path.segments ∧
        violation.origin ≠ "union" := by
  rw [violationsOfField, withoutUnions, violationsUnder, List.mem_filter, List.mem_filter,
    Path.startsWith_iff, bne_iff_ne, and_assoc]

theorem violationsOfField_eq_self
    (h : ∀ violation ∈ violations, violation.path = object.field jsonName ∧
      violation.origin ≠ "union") : violationsOfField object jsonName violations = violations := by
  rw [violationsOfField, withoutUnions, violationsUnder, List.filter_filter, List.filter_eq_self]
  intro violation hviolation
  obtain ⟨hpath, horigin⟩ := h violation hviolation
  rw [Bool.and_eq_true, bne_iff_ne, Path.startsWith_iff, hpath]
  exact ⟨horigin, List.prefix_rfl⟩

end

/-! ## Origins of violations that end a walk -/

/-- The origins of violations of rules on presence and change. -/
def stopOrigins : List String := ["required", "forbidden", "immutable", "update"]

/-- Checks of values have other origins, and so have unions. -/
theorem Constraint.origin_of_checksValue {constraint : Constraint}
    (h : constraint.checksValue = true) : constraint.origin ∉ "union" :: stopOrigins := by
  cases constraint with
  | format kind =>
    rw [origin]
    cases kind <;> decide
  | minimum | maxLength | maxItems | maxProperties | enumeration | differs =>
    simp only [origin, tag]
    decide
  | _ => cases h

theorem Constraint.checksValue_of_breach? {constraint : Constraint} {gates : GateView}
    {path : Path} {value : Value} {violation : Violation}
    (h : constraint.breach? gates path value = some violation) :
    constraint.checksValue = true := by
  cases constraint with
  | minimum | maxLength | maxItems | maxProperties | format | enumeration | differs => rfl
  | _ => cases h

theorem Site.mismatch_origin (site : Site) (value : Value) (constraints : List Constraint) :
    (site.mismatch value constraints).origin ∉ "union" :: stopOrigins := by
  change ((constraints.find? Constraint.checksValue).map Constraint.origin).getD "type" ∉
    "union" :: stopOrigins
  cases hfind : constraints.find? Constraint.checksValue with
  | none => decide
  | some constraint => exact Constraint.origin_of_checksValue (List.find?_some hfind)

theorem CompiledStruct.origin_of_mem_unionViolations {body : CompiledStruct} {path : Path}
    {object : Value} {old : Option Value} {violation : Violation}
    (h : violation ∈ body.unionViolations path object old) :
    violation.origin = "union" ∨ violation.origin = "zeroOrOneOf" := by
  rcases List.mem_append.mp h with h | h
  · obtain ⟨group, -, h⟩ := List.mem_flatMap.mp h
    exact .inl (UnionGroup.mem_unionViolations h).1
  · obtain ⟨group, -, h⟩ := List.mem_flatMap.mp h
    rw [UnionGroup.zeroOrOneViolations] at h
    split at h
    · cases h
    · cases h
    · rw [List.mem_singleton.mp h]
      exact .inr rfl

namespace Context

variable {c : Context} {value : Value} {site : Site} {violation : Violation}

/-- Where a value is checked, what is found at the value itself has another origin. -/
theorem origin_of_mem_checkedViolations (h : violation ∈ c.checkedViolations value site)
    (hpath : violation.path = site.path) : violation.origin ∉ stopOrigins := by
  rcases found_of_mem_checkedViolations h with hhere | ⟨inner, innerSite, hleads, hinner⟩
  · cases hhere with
    | breach hrule hbreach heq =>
      rw [heq, Violation.nativeIf_origin, Constraint.origin_of_breach? hbreach]
      exact fun horigin => Constraint.origin_of_checksValue
        (Constraint.checksValue_of_breach? hbreach) (List.mem_cons_of_mem _ horigin)
    | @repeated access element semantics items found hdeep hplan hitems hunique hfound heq =>
      obtain ⟨position, item, hat⟩ := ListSemantics.mem_duplicatesAfter hfound
      obtain ⟨segment, hextend, -⟩ := semantics.elementPath_extend site.path position item
      rw [heq, Violation.nativeIf_path, hat.path, hextend] at hpath
      exact absurd (congrArg Path.segments hpath ▸ List.prefix_rfl)
        (site.path.not_under_extend segment)
    | union hdeep hplan hobject hbody hfound heq =>
      rw [heq, Violation.nativeIf_origin]
      rcases CompiledStruct.origin_of_mem_unionViolations hfound with horigin | horigin <;>
        rw [horigin] <;> decide
  · obtain ⟨segment, hextend⟩ := hleads.path
    have hunder := walk_under hinner
    rw [hextend, hpath] at hunder
    exact absurd hunder (site.path.not_under_extend segment)

/-- A violation by which a walk has ended is all that it has found. -/
theorem walk_eq_of_stop (h : violation ∈ c.walk value site) (hpath : violation.path = site.path)
    (horigin : violation.origin ∈ stopOrigins) : c.walk value site = [violation] := by
  generalize hfound : c.walk value site = found at h
  have hcourse : c.Course value site found := hfound ▸ c.course value site
  cases hcourse with
  | unchanged hsame => cases h
  | blocked hchanged hblocked => rw [List.mem_singleton.mp h]
  | absent hchanged hclear habsent => cases h
  | unfit hchanged hclear hpresent hunfit =>
    rw [List.mem_singleton.mp h, Violation.nativeIf_origin] at horigin
    exact absurd (List.mem_cons_of_mem _ horigin) (site.mismatch_origin value _)
  | checked hchanged hclear hpresent hfits =>
    exact absurd horigin (origin_of_mem_checkedViolations h hpath)

/-! ## The walks that meet a field -/

section

variable {body : CompiledStruct} {field : CompiledField}

theorem flatMap_of_jsonName {fields : List CompiledField}
    (hnames : (fields.map CompiledField.jsonName).Nodup) (hfield : field ∈ fields)
    (found : CompiledField → List Violation) :
    (fields.flatMap fun other => if other.jsonName = field.jsonName then found other else []) =
      found field := by
  induction fields with
  | nil => cases hfield
  | cons first fields ih =>
    rw [List.map_cons, List.nodup_cons] at hnames
    obtain ⟨hfirst, hrest⟩ := hnames
    rw [List.flatMap_cons]
    rcases List.mem_cons.mp hfield with rfl | hfield
    · have hnone : ∀ other ∈ fields, other.jsonName ≠ field.jsonName := fun other hother heq =>
        hfirst (heq ▸ List.mem_map_of_mem hother)
      rw [if_pos rfl, List.flatMap_eq_nil_iff.mpr fun other hother => if_neg (hnone other hother),
        List.append_nil]
    · have hne : first.jsonName ≠ field.jsonName :=
        fun heq => hfirst (heq ▸ List.mem_map_of_mem hfield)
      rw [if_neg hne, List.nil_append, ih hrest hfield]

/-- A field is met by a shallow walk for each rule that its struct has on it, and by its own. -/
theorem fieldViolations_eq (hnames : (body.fields.map CompiledField.jsonName).Nodup)
    (hfield : field ∈ body.fields) :
    c.fieldViolations site body field.jsonName value =
      ((rulesWithin (Place.isSubfield field.jsonName) (c.rulesAt site)).flatMap fun rule =>
        c.walk value (site.field field [rule] true)) ++
      c.walk value (site.field field field.rules field.isOpaque) := by
  rw [fieldViolations, flatMap_of_jsonName hnames hfield fun other =>
    c.walk value (site.field other other.rules other.isOpaque)]
  congr 1
  induction c.rulesAt site with
  | nil => rfl
  | cons rule rules ih =>
    rw [List.flatMap_cons, ih, rulesWithin, rulesWithin, List.filterMap_cons]
    cases rule with
    | leaf | guarded => rfl
    | within place inner tag =>
      cases place with
      | subfield name =>
        by_cases hname : name = field.jsonName
        · simp [ruleFieldViolations, Place.isSubfield, hname,
            CompiledStruct.field?_of_mem hnames hfield]
        · simp [ruleFieldViolations, Place.isSubfield, hname]
      | _ => rfl

end

/-- The rules at a whole object are those of its type. -/
theorem rulesAt_root {name : String} {type : CompiledType}
    (htype : c.schema.get? name = some type) (old : Option Value) :
    c.rulesAt (.root (.struct ⟨false, [name]⟩ name) old) = activeRules c.gates type.rules := by
  simp [rulesAt, Site.root, Plan.access, lentRules, htype, activeRules]

/-- Only objects fit a struct. -/
theorem isObject_of_fits {access : Access} {type : String}
    (h : (Plan.struct access type).fits value = true) : value.isObject = true := by
  cases value with
  | object members => rfl
  | _ => cases h

/-- If anything is found at a field of a whole object, then the object is checked, and all that is
found at the field is found by the walks that meet it. -/
theorem walk_root_of_field {access : Access} {type jsonName : String} {body : CompiledStruct}
    {old : Option Value} (hbody : c.schema.struct? type = some body)
    (h : violation ∈ c.walk value (.root (.struct access type) old))
    (hpath : violation.path = Path.root.field jsonName) :
    violationsOfField .root jsonName (c.walk value (.root (.struct access type) old)) =
      violationsOfField .root jsonName
        (c.fieldViolations (.root (.struct access type) old) body jsonName
          (value.member jsonName)) := by
  have hinside : violation.path ≠ Path.root := by
    rw [hpath]
    exact nofun
  generalize hfound : c.walk value (.root (.struct access type) old) = found at h
  have hcourse : c.Course value (.root (.struct access type) old) found := hfound ▸ c.course value _
  cases hcourse with
  | unchanged hsame => cases h
  | blocked hchanged hblocked =>
    rw [List.mem_singleton.mp h, Violation.nativeIf_path] at hinside
    exact absurd (Site.isAt_of_blocked? hblocked).path hinside
  | absent hchanged hclear habsent => cases h
  | unfit hchanged hclear hpresent hunfit =>
    rw [List.mem_singleton.mp h, Violation.nativeIf_path] at hinside
    exact absurd rfl hinside
  | checked hchanged hclear hpresent hfits =>
    have hroot : (Site.root (.struct access type) old).plan = .struct access type := rfl
    exact checkedViolations_ofField rfl hroot hbody (isObject_of_fits hfits)

end Context

/-! ## Values that do not fit -/

namespace Context

variable {c : Context} {value : Value} {site : Site}

/-- What is reported of a set value that does not fit: that it is forbidden, where it is, and else
that it does not fit. -/
def refusal (c : Context) (value : Value) (site : Site) : Violation :=
  let reported :=
    if hasConstraint (activeRules c.gates site.rules)
        (fun constraint => constraint.tag == .forbidden) then
      Violation.forbidden site.path "may not be specified" "forbidden"
    else site.mismatch value ((c.rulesAt site).filterMap Rule.constraint?)
  reported.nativeIf site.native

@[simp]
theorem refusal_path (value : Value) (site : Site) : (c.refusal value site).path = site.path := by
  rw [refusal, Violation.nativeIf_path]
  split <;> rfl

theorem refusal_kind (value : Value) (site : Site) : (c.refusal value site).kind =
    if hasConstraint (activeRules c.gates site.rules)
      (fun constraint => constraint.tag == .forbidden) then .forbidden else .invalid := by
  rw [refusal, Violation.nativeIf_kind]
  split <;> rfl

theorem refusal_origin (value : Value) (site : Site) :
    (c.refusal value site).origin ≠ "union" := by
  rw [refusal, Violation.nativeIf_origin]
  split
  · exact (by decide : "forbidden" ≠ "union")
  · exact fun horigin => site.mismatch_origin value _ (List.mem_cons.mpr (.inl horigin))

theorem presence?_set (constraint : Constraint) (path : Path) :
    constraint.presence? path false =
      if constraint.tag == .forbidden then
        some (.forbidden path "may not be specified" "forbidden")
      else none := by
  cases constraint <;> rfl

/-- Of a new value that is set only a rule that forbids it ends the walk. -/
theorem blocked?_create (hold : site.old = none) (hset : site.plan.isUnset value = false)
    (rules : List Rule) :
    site.blocked? value (rules.filterMap Rule.constraint?) =
      if hasConstraint rules (fun constraint => constraint.tag == .forbidden) then
        some (.forbidden site.path "may not be specified" "forbidden")
      else none := by
  have hrejection (constraints : List Constraint) : site.rejection? value constraints = none := by
    rw [Site.rejection?, hold]
    rfl
  rw [Site.blocked?, hrejection, Option.none_or, hset]
  induction rules with
  | nil => rfl
  | cons rule rules ih =>
    rw [hasConstraint, List.any_cons, ← hasConstraint]
    cases rule with
    | leaf constraint tag =>
      have hcons : (Rule.leaf constraint tag :: rules).filterMap Rule.constraint? =
          constraint :: rules.filterMap Rule.constraint? := rfl
      rw [hcons, List.findSome?_cons, presence?_set, ih, Rule.asks]
      cases constraint.tag == .forbidden with
      | true => rfl
      | false => rfl
    | within | guarded => exact ih

/-- A new value that is set and does not fit is reported once by every walk that meets it. -/
theorem walk_create_unfit (hold : site.old = none) (hset : site.plan.isUnset value = false)
    (hunfit : site.plan.fits value = false) : c.walk value site = [c.refusal value site] := by
  have hchanged : site.isUnchanged value = false := by
    rw [Site.isUnchanged, hold]
    rfl
  have hpresent : (value.isNull || site.isField && site.plan.isUnset value) = false := by
    cases value with
    | null => cases hset
    | _ => rw [hset, Bool.and_false]; rfl
  have hblocked := blocked?_create hold hset (activeRules c.gates site.rules)
  cases hforbidden : hasConstraint (activeRules c.gates site.rules)
      (fun constraint => constraint.tag == .forbidden) with
  | true =>
    rw [hforbidden, if_pos rfl] at hblocked
    have hcourse : c.Course value site _ := .blocked hchanged hblocked
    rw [hcourse.walk_eq, refusal, hforbidden, if_pos rfl]
  | false =>
    rw [hforbidden, if_neg Bool.false_ne_true] at hblocked
    have hcourse : c.Course value site _ := .unfit hchanged hblocked hpresent hunfit
    rw [hcourse.walk_eq, refusal, hforbidden, if_neg Bool.false_ne_true]

/-- Each walk that meets a field of a whole object with such a value reports it once. -/
theorem walk_root_create_unfit (access : Access) {type : String} {body : CompiledStruct}
    {field : CompiledField} (hbody : c.schema.struct? type = some body)
    (hnames : (body.fields.map CompiledField.jsonName).Nodup) (hfield : field ∈ body.fields)
    (hset : field.plan.isUnset (value.member field.jsonName) = false)
    (hunfit : field.plan.fits (value.member field.jsonName) = false) :
    violationsOfField .root field.jsonName (c.walk value (.root (.struct access type) none)) =
      (rulesWithin (Place.isSubfield field.jsonName)
          (c.rulesAt (.root (.struct access type) none))).map (fun rule =>
        c.refusal (value.member field.jsonName)
          ((Site.root (.struct access type) none).field field [rule] true)) ++
      [c.refusal (value.member field.jsonName)
        ((Site.root (.struct access type) none).field field field.rules field.isOpaque)] := by
  have hobject : value.isObject = true := by
    cases value with
    | object members => rfl
    | _ => cases hset
  have hnever : ∀ earlier ∈ (none : Option Value), earlier.isObject = true := nofun
  have hwalk (rules : List Rule) (isShallow : Bool) :
      c.walk (value.member field.jsonName)
          ((Site.root (.struct access type) none).field field rules isShallow) =
        [c.refusal (value.member field.jsonName)
          ((Site.root (.struct access type) none).field field rules isShallow)] :=
    walk_create_unfit rfl hset hunfit
  rw [walk_root_ofField rfl hbody hobject hnever, fieldViolations_eq hnames hfield]
  simp only [hwalk, ← List.map_eq_flatMap]
  apply violationsOfField_eq_self
  intro violation hviolation
  rcases List.mem_append.mp hviolation with hviolation | hviolation
  · obtain ⟨rule, -, rfl⟩ := List.mem_map.mp hviolation
    exact ⟨refusal_path _ _, refusal_origin _ _⟩
  · rw [List.mem_singleton.mp hviolation]
    exact ⟨refusal_path _ _, refusal_origin _ _⟩

end Context

/-! ## Rules on presence and change -/

/-- If a struct has no rules on single fields, under conditions or not, then the violation of a rule
on presence or change is the only one at its field and inside it, but for those of unions. -/
theorem validate_stopped {schema : Schema} {name : String} {type : CompiledType}
    {body : CompiledStruct} (htype : schema.get? name = some type)
    (hbody : type.body = .struct body)
    (hnames : (body.fields.map CompiledField.jsonName).Nodup)
    (hrules : ∀ rule ∈ type.rules, rule.innermost.isOnSubfield = false) (gates : GateView)
    (new : Value) (old : Option Value) :
    ∃ found, validate schema name gates new old = .ok found ∧
      ∀ field ∈ body.fields, ∀ violation ∈ found,
        violation.path = Path.root.field field.jsonName →
        violation.origin ∈ ["required", "forbidden", "immutable", "update"] →
          violationsOfField .root field.jsonName found = [violation] := by
  have hstruct : schema.struct? name = some body := by
    simp [Schema.struct?, htype, hbody]
  refine ⟨_, Schema.validate_of_struct? hstruct gates new old, ?_⟩
  intro field hfield violation hviolation hpath horigin
  have hrulesAt := Context.rulesAt_root (c := ⟨schema, gates⟩) htype old
  have hnone : rulesWithin (Place.isSubfield field.jsonName) (activeRules gates type.rules) =
      [] := by
    rw [List.eq_nil_iff_forall_not_mem]
    intro inner hinner
    obtain ⟨place, tag, hplace, hactive⟩ := mem_rulesWithin_iff.mp hinner
    obtain ⟨given, hgiven, hresolve⟩ := mem_activeRules_iff.mp hactive
    have hinnermost := Rule.eq_of_resolve Rule.innermost (fun _ _ _ => rfl) hresolve
    have hnot := hrules given hgiven
    rw [← hinnermost] at hnot
    cases place with
    | subfield jsonName => cases hnot
    | _ => cases hplace
  have hfound := Context.walk_root_of_field hstruct hviolation hpath
  rw [Context.fieldViolations_eq hnames hfield, hrulesAt, hnone, List.flatMap_nil,
    List.nil_append] at hfound
  have hother : violation.origin ≠ "union" := fun heq => by
    rw [heq] at horigin
    exact absurd horigin (by decide)
  -- The violation is among those of the walk of the field itself, which it has ended.
  have hunder : (Path.root.field field.jsonName).segments <+: violation.path.segments :=
    hpath ▸ List.prefix_rfl
  have hkept := mem_violationsOfField_iff.mpr ⟨hviolation, hunder, hother⟩
  rw [hfound] at hkept ⊢
  rw [Context.walk_eq_of_stop (mem_violationsOfField_iff.mp hkept).1 hpath horigin]
  apply violationsOfField_eq_self
  intro other hmem
  rw [List.mem_singleton.mp hmem]
  exact ⟨hpath, hother⟩

/-- A ticket has a code, which it keeps, and needs a seat. -/
def ticketTypes : Universe := Catalog.ofList
  [⟨"Code", ["+k8s:maxLength=2"], .alias (.scalar .string) []⟩,
    ⟨"Ticket", [], .struct
      [⟨"Code", none, .named "Code", ["+k8s:maxLength=3", "+k8s:immutable"]⟩,
        ⟨"Seat", none, .scalar .string, ["+k8s:required"]⟩]⟩]

def seatedTicket : Value := .ofMembers [("code", .string "A1"), ("seat", .string "7")]

/-- The seat has been given up, and the code is another one. -/
def changedTicket : Value := .ofMembers [("code", .string "long")]

/-- The code that has changed is too long as well, which is not reported. -/
theorem validate_stopped_ticket :
    ∃ type body, (compile ticketTypes .default).schema.get? "Ticket" = some type ∧
      type.body = .struct body ∧ (body.fields.map CompiledField.jsonName).Nodup ∧
      (∀ rule ∈ type.rules, rule.innermost.isOnSubfield = false) ∧
      ∃ found, validate (compile ticketTypes .default).schema "Ticket" (fun _ => false)
          changedTicket (some seatedTicket) = .ok found ∧
        found.map Violation.origin = ["immutable", "required"] ∧
        ∀ field ∈ body.fields, ∀ violation ∈ found,
          violation.path = Path.root.field field.jsonName →
          violation.origin ∈ ["required", "forbidden", "immutable", "update"] →
            violationsOfField .root field.jsonName found = [violation] := by
  have hstruct : ((compile ticketTypes .default).schema.struct? "Ticket").map
      (fun body => decide (body.fields.map CompiledField.jsonName).Nodup) = some true := by
    decide +kernel
  have hnone : ((compile ticketTypes .default).schema.get? "Ticket").map
      (fun type => type.rules.all fun rule => !rule.innermost.isOnSubfield) = some true := by
    decide +kernel
  have horigins : (validate (compile ticketTypes .default).schema "Ticket" (fun _ => false)
      changedTicket (some seatedTicket)).toOption.map (List.map Violation.origin) =
        some ["immutable", "required"] := by
    decide +kernel
  obtain ⟨body, hbody, hnames⟩ := Option.map_eq_some_iff.mp hstruct
  obtain ⟨type, htype, -, htypeBody⟩ := Schema.get?_of_struct? hbody
  rw [htype, Option.map_some, Option.some.injEq, List.all_eq_true] at hnone
  have hrules : ∀ rule ∈ type.rules, rule.innermost.isOnSubfield = false := by
    simpa using hnone
  obtain ⟨found, hfound, honly⟩ := validate_stopped htype htypeBody (of_decide_eq_true hnames)
    hrules (fun _ => false) changedTicket (some seatedTicket)
  rw [hfound] at horigins
  exact ⟨type, body, htype, htypeBody, of_decide_eq_true hnames, hrules, found, hfound,
    Option.some.inj horigins, honly⟩

/-- A field of a new object that is set to a value that does not fit, and is not forbidden by its
own rules, is reported as invalid. Before that each active rule that the struct has on the field
reports it as well, once for each rule, as forbidden or as invalid. So there is just one violation
exactly where there is no such rule. -/
theorem validate_create_unfit {schema : Schema} {name : String} {type : CompiledType}
    {body : CompiledStruct} (htype : schema.get? name = some type)
    (hbody : type.body = .struct body)
    (hnames : (body.fields.map CompiledField.jsonName).Nodup) {field : CompiledField}
    (hfield : field ∈ body.fields) (gates : GateView) {new : Value}
    (hset : field.plan.isUnset (new.member field.jsonName) = false)
    (hunfit : field.plan.fits (new.member field.jsonName) = false)
    (hallowed : hasConstraint (activeRules gates field.rules)
      (fun constraint => constraint.tag == .forbidden) = false) :
    ∃ found visits own, validate schema name gates new none = .ok found ∧
      violationsOfField .root field.jsonName found = visits ++ [own] ∧
      own.path = Path.root.field field.jsonName ∧ own.kind = .invalid ∧
      List.Forall₂ (fun rule violation => violation.path = Path.root.field field.jsonName ∧
          violation.kind = if hasConstraint (activeRules gates [rule])
            (fun constraint => constraint.tag == .forbidden) then .forbidden else .invalid)
        (rulesWithin (Place.isSubfield field.jsonName) (activeRules gates type.rules)) visits := by
  have hstruct : schema.struct? name = some body := by
    simp [Schema.struct?, htype, hbody]
  have hfound := Context.walk_root_create_unfit (c := ⟨schema, gates⟩) ⟨false, [name]⟩ hstruct
    hnames hfield hset hunfit
  rw [Context.rulesAt_root htype] at hfound
  refine ⟨_, _, _, Schema.validate_of_struct? hstruct gates new none, hfound,
    Context.refusal_path _ _, ?_, ?_⟩
  · have hallowed' : hasConstraint (activeRules gates
        ((Site.root (.struct ⟨false, [name]⟩ name) none).field field field.rules
          field.isOpaque).rules) (fun constraint => constraint.tag == .forbidden) = false :=
      hallowed
    rw [Context.refusal_kind, hallowed', if_neg Bool.false_ne_true]
  · rw [List.forall₂_map_right_iff, List.forall₂_same]
    exact fun rule _ => ⟨Context.refusal_path _ _, Context.refusal_kind _ _⟩

/-- The struct itself says something about the names of its guests: they are short, and there are
none while the house is closed. -/
def guestTypes : Universe := Catalog.ofList
  [⟨"Guest", ["+k8s:subfield(name)=+k8s:maxLength=3",
      "+k8s:ifEnabled(Closed)=+k8s:subfield(name)=+k8s:forbidden"], .struct
    [⟨"Name", none, .scalar .string, ["+k8s:required"]⟩]⟩]

/-- A guest with a number for a name. -/
def numberedGuest : Value := .ofMembers [("name", .ofInt 5)]

/-- The number is reported three times, once as forbidden. -/
theorem validate_create_unfit_guest :
    ∃ type body field, (compile guestTypes .default).schema.get? "Guest" = some type ∧
      type.body = .struct body ∧ (body.fields.map CompiledField.jsonName).Nodup ∧
      field ∈ body.fields ∧ field.plan.isUnset (numberedGuest.member field.jsonName) = false ∧
      field.plan.fits (numberedGuest.member field.jsonName) = false ∧
      hasConstraint (activeRules (fun _ => true) field.rules)
        (fun constraint => constraint.tag == .forbidden) = false ∧
      ∃ found visits own, found.map Violation.kind = [.invalid, .forbidden, .invalid] ∧
        validate (compile guestTypes .default).schema "Guest" (fun _ => true) numberedGuest none =
          .ok found ∧
        violationsOfField .root field.jsonName found = visits ++ [own] ∧
        own.path = Path.root.field field.jsonName ∧ own.kind = .invalid ∧
        List.Forall₂ (fun rule violation => violation.path = Path.root.field field.jsonName ∧
            violation.kind = if hasConstraint (activeRules (fun _ => true) [rule])
              (fun constraint => constraint.tag == .forbidden) then .forbidden else .invalid)
          (rulesWithin (Place.isSubfield field.jsonName) (activeRules (fun _ => true) type.rules))
          visits := by
  have hstruct : ((compile guestTypes .default).schema.struct? "Guest").map
      (fun body => decide (body.fields.map CompiledField.jsonName).Nodup &&
        body.fields.any fun field =>
          !field.plan.isUnset (numberedGuest.member field.jsonName) &&
          !field.plan.fits (numberedGuest.member field.jsonName) &&
          !hasConstraint (activeRules (fun _ => true) field.rules)
            fun constraint => constraint.tag == .forbidden) = some true := by
    decide +kernel
  have hkinds : (validate (compile guestTypes .default).schema "Guest" (fun _ => true)
      numberedGuest none).toOption.map (List.map Violation.kind) =
        some [.invalid, .forbidden, .invalid] := by
    decide +kernel
  obtain ⟨body, hbody, hbodyOk⟩ := Option.map_eq_some_iff.mp hstruct
  obtain ⟨type, htype, -, htypeBody⟩ := Schema.get?_of_struct? hbody
  simp only [Bool.and_eq_true, decide_eq_true_eq, List.any_eq_true, Bool.not_eq_true'] at hbodyOk
  obtain ⟨hnames, field, hfield, ⟨hset, hunfit⟩, hallowed⟩ := hbodyOk
  obtain ⟨found, visits, own, hfound, hof, hpath, hkind, hvisits⟩ :=
    validate_create_unfit htype htypeBody hnames hfield (fun _ => true) hset hunfit hallowed
  rw [hfound] at hkinds
  exact ⟨type, body, field, htype, htypeBody, hnames, hfield, hset, hunfit, hallowed, found,
    visits, own, Option.some.inj hkinds, hfound, hof, hpath, hkind, hvisits⟩

end TaggedSchema
