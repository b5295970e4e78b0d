import TaggedSchema.Proofs.Rule.CutOff
import TaggedSchema.Proofs.Validation.Descent
import TaggedSchema.Proofs.Value.Equality
import TaggedSchema.Schema.Compile
import TaggedSchema.Validation.History

/-!
# Runs over the versions of an object

A version becomes the stored object, or it has violations and changes nothing. So what every stored
version keeps holds of all objects that are ever stored, and versions that are not stored could as
well not have arrived. One that is equal to the stored object is always stored, and a field that is
immutable stays as it was.
-/

namespace TaggedSchema

/-- The outcome of one version. -/
def outcome (type : CompiledType) (schema : Schema) (keepInvalid : Bool) (stored : Option Value)
    (version : Version) : Outcome :=
  let violations := type.violations schema version.gates version.object stored
  ⟨violations, if violations.isEmpty || keepInvalid then some version.object else stored⟩

/-- What is stored after these outcomes. -/
def storedAfter (stored : Option Value) (outcomes : List Outcome) : Option Value :=
  outcomes.foldl (fun _ outcome => outcome.stored) stored

/-- The versions that are stored for having no violations. -/
def acceptedVersions (type : CompiledType) (schema : Schema) (stored : Option Value)
    (versions : List Version) : List Version :=
  ((versions.zip (outcomes type schema false stored versions)).filter fun entry =>
    entry.2.violations.isEmpty).map Prod.fst

section

variable (type : CompiledType) (schema : Schema) (keepInvalid : Bool)

/-! ## One version -/

/-- The step: a version is stored, or nothing changes. -/
theorem outcome_cases (stored : Option Value) (version : Version) :
    ((outcome type schema keepInvalid stored version).violations = [] ∨ keepInvalid = true) ∧
        (outcome type schema keepInvalid stored version).stored = some version.object ∨
      (outcome type schema keepInvalid stored version).violations ≠ [] ∧ keepInvalid = false ∧
        (outcome type schema keepInvalid stored version).stored = stored := by
  simp only [outcome]
  cases hviolations : type.violations schema version.gates version.object stored with
  | nil => exact .inl ⟨.inl rfl, rfl⟩
  | cons violation violations =>
    cases keepInvalid with
    | true => exact .inl ⟨.inr rfl, rfl⟩
    | false => exact .inr ⟨List.cons_ne_nil _ _, rfl, rfl⟩

/-- An object that is equal to the stored one has no violations, whatever rules there are. -/
theorem violations_of_beq (gates : GateView) {new old : Value} (h : new == old) :
    type.violations schema gates new (some old) = [] :=
  (Context.Course.unchanged h : Context.Course ⟨schema, gates⟩ new (.root type.plan old) []).walk_eq

/-! ## Runs -/

theorem outcomes_cons (stored : Option Value) (version : Version) (versions : List Version) :
    outcomes type schema keepInvalid stored (version :: versions) =
      outcome type schema keepInvalid stored version ::
        outcomes type schema keepInvalid (outcome type schema keepInvalid stored version).stored
          versions :=
  rfl

theorem length_outcomes (stored : Option Value) (versions : List Version) :
    (outcomes type schema keepInvalid stored versions).length = versions.length := by
  induction versions generalizing stored with
  | nil => rfl
  | cons version versions ih => rw [outcomes_cons, List.length_cons, ih, List.length_cons]

/-- A run goes on from what is stored. -/
theorem outcomes_append (stored : Option Value) (versions later : List Version) :
    outcomes type schema keepInvalid stored (versions ++ later) =
      outcomes type schema keepInvalid stored versions ++
        outcomes type schema keepInvalid
          (storedAfter stored (outcomes type schema keepInvalid stored versions)) later := by
  induction versions generalizing stored with
  | nil => rfl
  | cons version versions ih =>
    rw [List.cons_append, outcomes_cons, ih, outcomes_cons, List.cons_append]
    rfl

variable {type schema keepInvalid}

/-- The run: what holds of the stored object at first and is kept by each step holds all the way,
and with it what each step has as its outcome. -/
theorem forall_outcomes {P : Option Value → Prop} {Q : Outcome → Prop} {stored : Option Value}
    {versions : List Version} (hstored : P stored)
    (hstep : ∀ version ∈ versions, ∀ stored, P stored →
      P (outcome type schema keepInvalid stored version).stored ∧
        Q (outcome type schema keepInvalid stored version)) :
    ∀ outcome ∈ outcomes type schema keepInvalid stored versions, Q outcome := by
  induction versions generalizing stored with
  | nil => nofun
  | cons version versions ih =>
    obtain ⟨hnext, hfirst⟩ := hstep version List.mem_cons_self stored hstored
    rw [outcomes_cons]
    refine List.forall_mem_cons.mpr ⟨hfirst, ih hnext ?_⟩
    intro version hversion
    exact hstep version (List.mem_cons_of_mem _ hversion)

theorem forall_stored_outcomes {P : Option Value → Prop} {stored : Option Value}
    {versions : List Version} (hstored : P stored)
    (hstep : ∀ version ∈ versions, ∀ stored, P stored →
      P (outcome type schema keepInvalid stored version).stored) :
    ∀ outcome ∈ outcomes type schema keepInvalid stored versions, P outcome.stored := by
  refine forall_outcomes hstored fun version hversion stored h => ?_
  have hnext := hstep version hversion stored h
  exact ⟨hnext, hnext⟩

variable (type schema)

/-- If versions with violations are stored as well, each version is compared with the one before. -/
theorem stored_outcomes_keepInvalid (stored : Option Value) (versions : List Version) :
    (outcomes type schema true stored versions).map Outcome.stored =
      versions.map fun version => some version.object := by
  induction versions generalizing stored with
  | nil => rfl
  | cons version versions ih =>
    rcases outcome_cases type schema true stored version with ⟨-, hstored⟩ | ⟨-, hfalse, -⟩
    · rw [outcomes_cons, List.map_cons, ih, hstored, List.map_cons]
    · cases hfalse

/-- A version that is not stored leaves nothing behind: without all of these, the others have the
outcomes they had, and the same object is stored in the end. -/
theorem outcomes_acceptedVersions (stored : Option Value) (versions : List Version) :
    outcomes type schema false stored (acceptedVersions type schema stored versions) =
        (outcomes type schema false stored versions).filter
          (fun outcome => outcome.violations.isEmpty) ∧
      storedAfter stored
          (outcomes type schema false stored (acceptedVersions type schema stored versions)) =
        storedAfter stored (outcomes type schema false stored versions) := by
  induction versions generalizing stored with
  | nil => exact ⟨rfl, rfl⟩
  | cons version versions ih =>
    obtain ⟨houtcomes, hstored⟩ := ih (outcome type schema false stored version).stored
    rw [acceptedVersions, outcomes_cons, List.zip_cons_cons]
    rcases outcome_cases type schema false stored version with
      ⟨hnone | hfalse, -⟩ | ⟨hsome, -, hkept⟩
    · have haccepted : (outcome type schema false stored version).violations.isEmpty = true :=
        List.isEmpty_iff.mpr hnone
      rw [List.filter_cons, if_pos haccepted, List.map_cons, List.filter_cons, if_pos haccepted,
        outcomes_cons]
      exact ⟨congrArg _ houtcomes, hstored⟩
    · cases hfalse
    · have hrejected : (outcome type schema false stored version).violations.isEmpty ≠ true :=
        fun h => hsome (List.isEmpty_iff.mp h)
      rw [List.filter_cons, if_neg hrejected, List.filter_cons, if_neg hrejected]
      rw [hkept] at houtcomes hstored ⊢
      refine ⟨houtcomes, hstored.trans ?_⟩
      rw [storedAfter, storedAfter, List.foldl_cons, hkept]

/-- An object that arrives again and again is never reported. -/
theorem violations_outcomes_of_beq (keepInvalid : Bool) {object : Value} {versions : List Version}
    (hsame : ∀ version ∈ versions, (version.object == object) = true) :
    ∀ outcome ∈ outcomes type schema keepInvalid (some object) versions,
      outcome.violations = [] := by
  refine forall_outcomes (P := fun stored => ∃ current, stored = some current ∧
    (current == object) = true) ⟨object, rfl, Value.beq_refl object⟩ ?_
  rintro version hversion _ ⟨current, rfl, hcurrent⟩
  have hunchanged : (version.object == current) = true :=
    Value.beq_trans (hsame version hversion) (Value.beq_symm hcurrent)
  have hnone : (outcome type schema keepInvalid (some current) version).violations = [] :=
    violations_of_beq type schema version.gates hunchanged
  refine ⟨?_, hnone⟩
  rcases outcome_cases type schema keepInvalid (some current) version with
    ⟨-, hstored⟩ | ⟨hsome, -⟩
  · exact ⟨version.object, hstored, hsame version hversion⟩
  · exact absurd hnone hsome

end

/-! ## Immutable fields -/

namespace Plan

/-- A value is still what it was: it is equal to the earlier one, or both are unset. -/
def Keeps (plan : Plan) (old new : Value) : Prop :=
  (new == old) = true ∨ plan.isUnset old = true ∧ plan.isUnset new = true

variable {plan : Plan} {a b c : Value}

/-- Equal values are both set or both unset. -/
theorem isUnset_of_beq (plan : Plan) (h : a == b) : plan.isUnset a = plan.isUnset b := by
  cases a with
  | null => cases b <;> first | rfl | cases h
  | bool x =>
    cases b with
    | bool y =>
      obtain rfl : x = y := beq_iff_eq.mp h
      rfl
    | _ => cases h
  | number x =>
    cases b with
    | number y => exact congrArg (!plan.access.nullable && ·) (Number.isZero_of_beq h)
    | _ => cases h
  | string x =>
    cases b with
    | string y =>
      obtain rfl : x = y := beq_iff_eq.mp h
      rfl
    | _ => cases h
  | array items =>
    cases b with
    | array others => exact isEmpty_of_forall₂ (Value.array_beq_array.mp h)
    | _ => cases h
  | object members =>
    cases b with
    | object others =>
      exact congrArg (· && plan.isMap) (isEmpty_of_forall₂ (Value.object_beq_object.mp h))
    | _ => cases h

theorem Keeps.trans (hab : plan.Keeps a b) (hbc : plan.Keeps b c) : plan.Keeps a c := by
  rcases hab with hab | ⟨ha, hb⟩
  · rcases hbc with hbc | ⟨hb, hc⟩
    · exact .inl (Value.beq_trans hbc hab)
    · exact .inr ⟨(isUnset_of_beq plan hab) ▸ hb, hc⟩
  · rcases hbc with hbc | ⟨-, hc⟩
    · exact .inr ⟨ha, (isUnset_of_beq plan hbc).trans hb⟩
    · exact .inr ⟨ha, hc⟩

theorem keeps_of_change? (h : plan.change? a b = none) : plan.Keeps a b := by
  rw [change?] at h
  split at h
  next ha hb => exact .inr ⟨ha, hb⟩
  all_goals cases h

end Plan

namespace Context

variable {c : Context} {value old : Value} {site : Site}

/-- Where nothing is found, an immutable value is still what it was. -/
theorem keeps_of_walk (himmutable : .immutable ∈ c.ownConstraints site) (hold : site.old = some old)
    (h : c.walk value site = []) : site.plan.Keeps old value := by
  have hclear (hclear : site.blocked? value (c.ownConstraints site) = none) :
      site.plan.Keeps old value := by
    apply Plan.keeps_of_change?
    rw [Site.blocked?, Option.or_eq_none_iff, Site.rejection?, hold] at hclear
    cases hchange : site.plan.change? old value with
    | none => rfl
    | some change =>
      simp only [Option.bind_eq_bind, Option.bind_some, hchange] at hclear
      have hrejected := List.findSome?_eq_none_iff.mp hclear.1 _ himmutable
      cases hrejected
  generalize hfound : c.walk value site = found at h
  have hcourse : c.Course value site found := hfound ▸ c.course value site
  cases hcourse with
  | unchanged hsame =>
    rw [Site.isUnchanged, hold, Option.any_some] at hsame
    exact .inl hsame
  | blocked hchanged hblocked => cases h
  | absent hchanged hnone habsent => exact hclear hnone
  | unfit hchanged hnone hpresent hunfit => cases h
  | checked hchanged hnone hpresent hfits => exact hclear hnone

/-- If nothing is found in a whole object, then nothing is found at its fields. -/
theorem walk_field_of_root {access : Access} {type : String} {body : CompiledStruct}
    {field : CompiledField} (hbody : c.schema.struct? type = some body)
    (hfield : field ∈ body.fields) (hvalue : value.isNull = false)
    (h : c.walk value (.root (.struct access type) (some old)) = []) :
    (value == old) = true ∨
      c.walk (value.member field.jsonName)
        ((Site.root (.struct access type) (some old)).field field field.rules field.isOpaque) =
          [] := by
  generalize hfound : c.walk value (.root (.struct access type) (some old)) = found at h
  have hcourse : c.Course value (.root (.struct access type) (some old)) found :=
    hfound ▸ c.course value _
  cases hcourse with
  | unchanged hsame => exact .inl hsame
  | blocked hchanged hblocked => cases h
  | absent hchanged hclear habsent =>
    rw [hvalue] at habsent
    cases habsent
  | unfit hchanged hclear hpresent hunfit => cases h
  | checked hchanged hclear hpresent hfits =>
    cases value with
    | object members =>
      simp only [checkedViolations, Site.root, Bool.false_eq_true, if_false, insideViolations,
        hbody, structViolations, List.append_eq_nil_iff] at h
      exact .inr (List.flatMap_eq_nil_iff.mp h.2.1 field hfield)
    | _ => cases hfits

end Context

section

variable {schema : Schema} {name : String} {type : CompiledType} {body : CompiledStruct}
  {field : CompiledField}

/-- The step: an update without violations leaves an immutable field as it was. A null object would
be let pass whatever was there before. -/
theorem keeps_of_violations (htype : schema.get? name = some type)
    (hbody : type.body = .struct body) (hfield : field ∈ body.fields) {gates : GateView}
    {tag : String} (himmutable : .leaf .immutable tag ∈ activeRules gates field.rules)
    {new old : Value} (hnew : new.isNull = false) (hold : old.isNull = false)
    (h : type.violations schema gates new (some old) = []) :
    field.plan.Keeps (old.member field.jsonName) (new.member field.jsonName) := by
  have hstruct : schema.struct? type.name = some body := by
    simp [Schema.struct?, Catalog.name_of_findEntry htype, htype, hbody]
  have hplan : type.plan = .struct ⟨false, [type.name]⟩ type.name := by
    rw [CompiledType.plan, hbody]
  rw [CompiledType.violations, hplan] at h
  rcases Context.walk_field_of_root hstruct hfield hnew h with hsame | hnone
  · exact .inl (Value.member_beq hsame _)
  · have hown : .immutable ∈ Context.ownConstraints ⟨schema, gates⟩
        ((Site.root (.struct ⟨false, [type.name]⟩ type.name) (some old)).field field field.rules
          field.isOpaque) :=
      List.mem_filterMap.mpr ⟨_, himmutable, rfl⟩
    refine Context.keeps_of_walk hown ?_ hnone
    simp [Site.field, Site.existing, Site.root, hold]

/-- The stored object is not null, and its field is what it is in this object. -/
def CompiledField.IsKeptFrom (field : CompiledField) (object : Value) (stored : Option Value) :
    Prop :=
  ∃ current, stored = some current ∧ current.isNull = false ∧
    field.plan.Keeps (object.member field.jsonName) (current.member field.jsonName)

/-- The run: while no version is null and a rule says that the field is immutable, whatever is
stored has the field as it was in the object that is stored at first. -/
theorem immutable_kept (htype : schema.get? name = some type)
    (hbody : type.body = .struct body) (hfield : field ∈ body.fields) {object : Value}
    (hobject : object.isNull = false) {versions : List Version}
    (hversions : ∀ version ∈ versions, version.object.isNull = false ∧
      ∃ tag, .leaf .immutable tag ∈ activeRules version.gates field.rules) :
    ∀ outcome ∈ outcomes type schema false (some object) versions,
      field.IsKeptFrom object outcome.stored := by
  apply forall_stored_outcomes
  · exact ⟨object, rfl, hobject, .inl (Value.beq_refl _)⟩
  · rintro version hversion _ ⟨current, rfl, hcurrent, hkept⟩
    obtain ⟨hnew, tag, himmutable⟩ := hversions version hversion
    rcases outcome_cases type schema false (some current) version with
      ⟨hnone | hfalse, hstored⟩ | ⟨-, -, hstored⟩
    · have hstep := keeps_of_violations htype hbody hfield himmutable hnew hcurrent hnone
      exact ⟨version.object, hstored, hnew, hkept.trans hstep⟩
    · cases hfalse
    · exact ⟨current, hstored, hcurrent, hkept⟩

end

/-- An account keeps its owner. -/
def accountTypes : Universe := Catalog.ofList
  [⟨"Account", [], .struct
    [⟨"Owner", none, .scalar .string, ["+k8s:immutable"]⟩,
      ⟨"Note", none, .scalar .string, []⟩]⟩]

def accountOf (owner note : String) : Version :=
  ⟨.ofMembers [("owner", .string owner), ("note", .string note)], fun _ => false⟩

/-- The second version is not stored, so that the third one is compared with the first. -/
example :
    ((compile accountTypes .default).schema.get? "Account").map (fun type =>
      (outcomes type (compile accountTypes .default).schema false none
        [accountOf "anna" "", accountOf "bob" "", accountOf "anna" "new"]).map fun outcome =>
          outcome.violations.map Violation.kind) = some [[], [.forbidden], []] := by
  decide +kernel

end TaggedSchema
