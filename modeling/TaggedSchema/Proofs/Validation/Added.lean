import TaggedSchema.Proofs.Validation.Ratchet
import TaggedSchema.Proofs.Validation.Unions
import TaggedSchema.Proofs.Value.Equality

/-!
# Added values

Where fields lead to a value that was unset before, the value is validated on update as it would be
on creation: as far as the walk is concerned, it has no earlier version. Only rules on change tell
the two apart. The structs on the way to the value have been there before, and are walked over as
updates.
-/

namespace TaggedSchema

/-- The value to which the fields with these names lead. A missing field is null. -/
def Value.memberAt (value : Value) (names : List String) : Value :=
  names.foldl Value.member value

/-- The path to which the fields with these names lead. -/
def Path.fields (path : Path) (names : List String) : Path :=
  names.foldl Path.field path

/-- Fields lead to a value that is set now. It was unset before, while the objects around it were
there. -/
structure IsAddedAt (names : List String) (new old : Value) : Prop where
  set : (new.memberAt names).isNull = false
  unset : (old.memberAt names).isNull = true
  around : ∀ outer, outer <+: names → outer ≠ names → (old.memberAt outer).isNull = false

theorem Value.eq_null {value : Value} (h : value.isNull = true) : value = .null := by
  cases value with
  | null => rfl
  | _ => cases h

/-- Equal values have equal values inside. -/
theorem Value.memberAt_beq {a b : Value} (h : a == b) (names : List String) :
    (a.memberAt names == b.memberAt names) = true := by
  induction names generalizing a b with
  | nil => exact h
  | cons name names ih => exact ih (Value.member_beq h name)

namespace IsAddedAt

variable {new old : Value} {name : String} {names : List String}

theorem ne (h : IsAddedAt names new old) : (new == old) = false := by
  cases hsame : new == old with
  | false => rfl
  | true =>
    have hinner := Value.memberAt_beq hsame names
    rw [Value.eq_null h.unset] at hinner
    have hset := h.set
    cases hvalue : new.memberAt names <;> rw [hvalue] at hinner hset <;> contradiction

theorem field (h : IsAddedAt (name :: names) new old) :
    IsAddedAt names (new.member name) (old.member name) where
  set := h.set
  unset := h.unset
  around outer houter hne := h.around (name :: outer) ((List.prefix_cons_inj _).mpr houter)
    fun heq => hne (List.cons.inj heq).2

theorem isNull_old (h : IsAddedAt (name :: names) new old) : old.isNull = false :=
  h.around [] List.nil_prefix (List.cons_ne_nil name names).symm

end IsAddedAt

/-! ## Rules that say nothing about changes -/

/-- Whether the constraint is on the change of a value. -/
def Constraint.isOnChange : Constraint → Bool
  | immutable | restriction _ => true
  | _ => false

/-- The rule says nothing about changes, at whatever places and under whatever conditions. -/
def Rule.IsSteady (rule : Rule) : Prop :=
  ∀ part ∈ rule.all, part.asks Constraint.isOnChange = false

instance (rule : Rule) : Decidable rule.IsSteady :=
  inferInstanceAs (Decidable (∀ part ∈ rule.all, part.asks Constraint.isOnChange = false))

theorem Rule.IsSteady.within {place : Place} {inner : Rule} {tag : String}
    (h : (Rule.within place inner tag).IsSteady) : inner.IsSteady :=
  fun part hpart => h part (List.mem_cons_of_mem _ hpart)

theorem Rule.IsSteady.resolve {gates : GateView} {rule active : Rule} (h : rule.IsSteady)
    (hactive : rule.resolve gates = some active) : active.IsSteady := by
  induction rule with
  | guarded condition inner tag ih =>
    rw [Rule.resolve] at hactive
    split at hactive
    · exact ih (fun part hpart => h part (List.mem_cons_of_mem _ hpart)) hactive
    · cases hactive
  | _ =>
    cases hactive
    exact h

theorem Site.blocked?_fresh {site : Site} {value : Value} {constraints : List Constraint}
    (h : ∀ constraint ∈ constraints, constraint.isOnChange = false) :
    site.fresh.blocked? value constraints = site.blocked? value constraints := by
  cases hrejection : site.rejection? value constraints with
  | none =>
    rw [blocked?, blocked?, hrejection, Option.none_or]
    rfl
  | some violation =>
    obtain ⟨constraint, hmem, change, detail, hdetail, -⟩ := exists_of_rejection? hrejection
    have hsteady := h constraint hmem
    cases constraint with
    | immutable | restriction => cases hsteady
    | _ => cases hdetail

/-! ## Unions around the added value -/

/-- The way to the value begins with its first field. -/
theorem Path.field_prefix_fields (path : Path) (name : String) (names : List String) :
    (path.field name).segments <+: (path.fields (name :: names)).segments := by
  induction names generalizing path name with
  | nil => exact List.prefix_rfl
  | cons next names ih => exact (List.prefix_append _ _).trans (ih (path.field name) next)

/-- What a union reports at a field of its struct, or inside it, concerns this field. -/
theorem UnionGroup.ReportsAt.mem_fields {group : UnionGroup} {struct place : Path} {name : String}
    (h : group.ReportsAt struct place)
    (hunder : (struct.field name).segments <+: place.segments) : name ∈ group.fields := by
  cases h with
  | struct => exact absurd hunder (struct.not_under_extend (.field name))
  | @member member hmember =>
    have hfield : struct.segments ++ [.field member.field] <+: (member.path struct).segments := by
      rw [UnionMember.path]
      split
      · exact List.prefix_append _ _
      · exact List.prefix_rfl
    cases segment_unique hunder hfield
    exact List.mem_append_left _ (List.mem_map_of_mem hmember)
  | @discriminator jsonName hjsonName =>
    cases segment_unique hunder List.prefix_rfl
    exact List.mem_append_right _ (Option.mem_toList.mpr hjsonName)

section

variable {struct : Path} {name : String} {names : List String} {new old : Value}

/-- A union that reports inside the field that leads to an added value has changed. -/
theorem UnionGroup.unionViolations_under_added (group : UnionGroup)
    (hadded : IsAddedAt (name :: names) new old) :
    violationsUnder (struct.fields (name :: names))
        (group.unlessUnchanged new (some old) (group.unionViolations struct new)) =
      violationsUnder (struct.fields (name :: names)) (group.unionViolations struct new) := by
  rw [unlessUnchanged, Option.any_some]
  split
  next hsame =>
    refine (violationsUnder_eq_nil fun violation hviolation hunder => ?_).symm
    obtain ⟨-, place, hplace, hat⟩ := mem_unionViolations hviolation
    rw [hat.path] at hunder
    have hmem : name ∈ group.fields :=
      hplace.mem_fields ((struct.field_prefix_fields name names).trans hunder)
    have hfield := List.all_eq_true.mp hsame name hmem
    rw [hadded.field.ne] at hfield
    cases hfield
  next => rfl

/-- A zero-or-one group reports at the struct, and never inside a field. -/
theorem UnionGroup.zeroOrOneViolations_under_fields (group : UnionGroup) (earlier : Option Value) :
    violationsUnder (struct.fields (name :: names))
      (group.unlessUnchanged new earlier (group.zeroOrOneViolations struct new)) = [] := by
  rw [unlessUnchanged]
  split
  next => rfl
  next =>
    refine violationsUnder_eq_nil fun violation hviolation hunder => ?_
    rw [(isAt_of_mem_zeroOrOneViolations hviolation).path] at hunder
    exact struct.not_under_extend (.field name)
      ((struct.field_prefix_fields name names).trans hunder)

/-- Inside the field that leads to an added value, the unions of a struct find the same as on
creation. -/
theorem CompiledStruct.unionViolations_under_added (body : CompiledStruct)
    (hadded : IsAddedAt (name :: names) new old) :
    violationsUnder (struct.fields (name :: names))
        (body.unionViolations struct new (some old)) =
      violationsUnder (struct.fields (name :: names)) (body.unionViolations struct new none) := by
  rw [unionViolations_eq, unionViolations_eq, violationsUnder_append, violationsUnder_append]
  congr 1
  · apply violationsUnder_flatMap_congr
    intro group _
    exact group.unionViolations_under_added hadded
  · apply violationsUnder_flatMap_congr
    intro group _
    rw [group.zeroOrOneViolations_under_fields, group.zeroOrOneViolations_under_fields]

end

namespace Context

variable {c : Context} {value : Value} {site : Site}

/-! ## Walks that check the value on update and on creation -/

/-- Where no rule is on change, a value that has changed is checked on update if it is on creation.
What holds of the results of the checks holds of the walks. -/
theorem walk_fresh_congr {α : Type} (part : List Violation → α)
    (hchanged : site.isUnchanged value = false)
    (hsteady : ∀ constraint ∈ c.ownConstraints site, constraint.isOnChange = false)
    (hchecked : part (c.checkedViolations value site) =
      part (c.checkedViolations value site.fresh)) :
    part (c.walk value site) = part (c.walk value site.fresh) := by
  have hfresh : site.fresh.isUnchanged value = false := rfl
  have hblock : site.fresh.blocked? value (c.ownConstraints site.fresh) =
      site.blocked? value (c.ownConstraints site) := Site.blocked?_fresh hsteady
  generalize hfound : c.walk value site = found
  have hcourse : c.Course value site found := hfound ▸ c.course value site
  cases hcourse with
  | unchanged hsame => cases hchanged.symm.trans hsame
  | blocked _ hblocked => rw [(Course.blocked hfresh (hblock.trans hblocked)).walk_eq]; rfl
  | absent _ hclear habsent => rw [(Course.absent hfresh (hblock.trans hclear) habsent).walk_eq]
  | unfit _ hclear hpresent hunfit =>
    rw [(Course.unfit hfresh (hblock.trans hclear) hpresent hunfit).walk_eq]
    rfl
  | checked _ hclear hpresent hfits =>
    rw [(Course.checked hfresh (hblock.trans hclear) hpresent hfits).walk_eq]
    exact hchecked

/-- No rule of the site is on change. -/
def IsSteadyAt (site : Site) : Prop :=
  ∀ rule ∈ site.rules, rule.IsSteady

variable (hschema : ∀ rule ∈ c.schema.rules, rule.IsSteady)

include hschema in
theorem isSteady_of_mem_rulesAt (hsite : IsSteadyAt site) {rule : Rule}
    (hrule : rule ∈ c.rulesAt site) : rule.IsSteady := by
  obtain ⟨given, hgiven, hactive⟩ := exists_givenAt hrule
  cases hgiven with
  | own hrule => exact (hsite _ hrule).resolve hactive
  | lent hname htype hrule =>
    exact (hschema _ (Schema.mem_rules_of_type htype hrule)).resolve hactive

theorem isOnChange_ownConstraints (hsite : IsSteadyAt site) :
    ∀ constraint ∈ c.ownConstraints site, constraint.isOnChange = false := by
  intro constraint hconstraint
  obtain ⟨active, hactive, hsome⟩ := List.mem_filterMap.mp hconstraint
  obtain ⟨rule, hrule, hresolve⟩ := List.mem_filterMap.mp hactive
  cases active with
  | leaf other tag =>
    cases hsome
    exact (hsite rule hrule).resolve hresolve (.leaf constraint tag) List.mem_cons_self
  | _ => cases hsome

/-! ## At the added value -/

/-- The earlier null is no earlier version of anything inside: what is looked up in it is missing, as
it is where there is nothing to look it up in. -/
theorem checkedViolations_of_unset (value : Value) (hold : site.old = some .null) :
    c.checkedViolations value site = c.checkedViolations value site.fresh := by
  obtain ⟨path, rules, plan, old, native, isField, isShallow⟩ := site
  subst hold
  rfl

theorem walk_of_unset (hsite : IsSteadyAt site) (hold : site.old = some .null)
    (hset : value.isNull = false) : c.walk value site = c.walk value site.fresh := by
  have hchanged : site.isUnchanged value = false := by
    rw [Site.isUnchanged, hold]
    cases value with
    | null => cases hset
    | _ => rfl
  exact walk_fresh_congr id hchanged (isOnChange_ownConstraints hsite)
    (checkedViolations_of_unset value hold)

/-! ## On the way to the added value -/

variable {name : String} {names : List String}

/-- Where a walk goes on elsewhere than at the field, it leads away from the added value. -/
theorem violationsUnder_walk_eq_nil (site : Site) {inner : Value} {innerSite : Site}
    {segment : Segment} (hpath : innerSite.path = site.path.extend segment) (hother : segment ≠ .field name) :
    violationsUnder (site.path.fields (name :: names)) (c.walk inner innerSite) = [] := by
  refine violationsUnder_eq_nil fun violation hviolation hunder => ?_
  have hinner := walk_under hviolation
  rw [hpath] at hinner
  exact hother
    (segment_unique ((site.path.field_prefix_fields name names).trans hunder) hinner).symm

/-- The walks over the value find the same along the path to an added value on update as on
creation. -/
def KeepsAdded (c : Context) (names : List String) : Prop :=
  ∀ value site old, IsSteadyAt site → site.old = some old → IsAddedAt names value old →
    violationsUnder (site.path.fields names) (c.walk value site) =
      violationsUnder (site.path.fields names) (c.walk value site.fresh)

section

variable {old : Value} (hold : site.old = some old) (hadded : IsAddedAt (name :: names) value old)
  (ih : c.KeepsAdded names)

include hold hadded

theorem existing_of_isAddedAt : site.existing = some old := by
  rw [Site.existing, hold, Option.filter_some, hadded.isNull_old]
  rfl

include ih

/-- One step of the induction on the names: of all fields of a struct, only one leads to the added
value. -/
theorem walk_field_added {field : CompiledField} {rules : List Rule}
    (hrules : ∀ rule ∈ rules, rule.IsSteady) (isShallow : Bool) :
    violationsUnder (site.path.fields (name :: names))
        (c.walk (value.member field.jsonName) (site.field field rules isShallow)) =
      violationsUnder (site.path.fields (name :: names))
        (c.walk (value.member field.jsonName) (site.fresh.field field rules isShallow)) := by
  by_cases hname : field.jsonName = name
  · subst hname
    have hinner : (site.field field rules isShallow).old = some (old.member field.jsonName) := by
      rw [Site.field, existing_of_isAddedAt hold hadded]
      rfl
    exact ih _ (site.field field rules isShallow) _ hrules hinner hadded.field
  · have hother : Segment.field field.jsonName ≠ .field name :=
      fun heq => hname (Segment.field.inj heq)
    rw [violationsUnder_walk_eq_nil site rfl hother]
    exact (violationsUnder_walk_eq_nil site.fresh rfl hother).symm

theorem ruleViolations_added {rule : Rule} (hrule : rule.IsSteady) :
    violationsUnder (site.path.fields (name :: names)) (c.ruleViolations value site rule) =
      violationsUnder (site.path.fields (name :: names))
        (c.ruleViolations value site.fresh rule) := by
  have hplan : site.fresh.plan = site.plan := rfl
  cases rule with
  | leaf constraint tag => rfl
  | guarded condition inner tag => rfl
  | within place inner tag =>
    have hinner : ∀ rule ∈ [inner], rule.IsSteady :=
      List.forall_mem_singleton.mpr hrule.within
    rw [ruleViolations, ruleViolations]
    unfold placeViolations
    rw [hplan]
    split
    next jsonName _ type members _ =>
      split
      next field hfield =>
        obtain ⟨body, -, hfield⟩ := Option.bind_eq_some_iff.mp hfield
        rw [← CompiledStruct.jsonName_of_field? hfield]
        exact walk_field_added hold hadded ih hinner true
      next => rfl
    next selector _ element semantics items _ =>
      obtain ⟨segment, hpath, hother⟩ := selectedItem_extend site.path semantics selector items
      rw [violationsUnder_walk_eq_nil site hpath (hother name)]
      exact (violationsUnder_walk_eq_nil site.fresh hpath (hother name)).symm
    next => rfl

include hschema in
theorem structViolations_added {type : String} {body : CompiledStruct}
    (hbody : c.schema.struct? type = some body) :
    violationsUnder (site.path.fields (name :: names)) (c.structViolations value site body) =
      violationsUnder (site.path.fields (name :: names))
        (c.structViolations value site.fresh body) := by
  rw [structViolations, structViolations, violationsUnder_append, violationsUnder_append]
  congr 1
  · apply violationsUnder_flatMap_congr
    intro field hfield
    have hrules : ∀ rule ∈ field.rules, rule.IsSteady := fun rule hrule =>
      hschema rule (Schema.mem_rules_of_field hbody hfield hrule)
    exact walk_field_added hold hadded ih hrules field.isOpaque
  · rw [violationsUnder_map_nativeIf, violationsUnder_map_nativeIf,
      existing_of_isAddedAt hold hadded, body.unionViolations_under_added hadded]
    rfl

end

/-- Elements of lists and entries of maps are not on the way. -/
theorem listViolations_added (items : List Value) (element : Plan) (semantics : ListSemantics)
    (rules : List Rule) :
    violationsUnder (site.path.fields (name :: names))
        (c.listViolations items site element semantics rules) =
      violationsUnder (site.path.fields (name :: names))
        (c.listViolations items site.fresh element semantics rules) := by
  rw [listViolations, listViolations, violationsUnder_append, violationsUnder_append]
  congr 1
  apply violationsUnder_flatMap_congr
  rintro ⟨item, position⟩ -
  obtain ⟨segment, hpath, hother⟩ := semantics.elementPath_extend site.path position item
  rw [violationsUnder_walk_eq_nil site hpath (hother name)]
  exact (violationsUnder_walk_eq_nil site.fresh hpath (hother name)).symm

theorem mapViolations_added (members : List (String × Value)) (key entry : Plan)
    (keyRules valueRules : List Rule) :
    violationsUnder (site.path.fields (name :: names))
        (c.mapViolations members site key entry keyRules valueRules) =
      violationsUnder (site.path.fields (name :: names))
        (c.mapViolations members site.fresh key entry keyRules valueRules) := by
  have hentry (site : Site) (key' : String) (inner : Value) :
      violationsUnder (site.path.fields (name :: names)) (c.keyViolations site key keyRules key' ++
        c.walk inner (site.entry entry valueRules key')) = [] := by
    rw [violationsUnder_append, violationsUnder_walk_eq_nil site rfl (by simp), List.append_nil,
      keyViolations]
    split
    · rfl
    · exact violationsUnder_walk_eq_nil site rfl (by simp)
  apply violationsUnder_flatMap_congr
  rintro ⟨key', inner⟩ -
  rw [hentry]
  exact (hentry site.fresh key' inner).symm

section

variable {old : Value} (hold : site.old = some old) (hadded : IsAddedAt (name :: names) value old)
  (ih : c.KeepsAdded names)

include hschema hold hadded ih

theorem insideViolations_added (rules : List Rule) :
    violationsUnder (site.path.fields (name :: names)) (c.insideViolations value site rules) =
      violationsUnder (site.path.fields (name :: names))
        (c.insideViolations value site.fresh rules) := by
  have hplan : site.fresh.plan = site.plan := rfl
  unfold insideViolations
  rw [hplan]
  split
  next type members _ =>
    split
    next body hbody => exact structViolations_added hschema hold hadded ih hbody
    next => rfl
  next element semantics items _ => exact listViolations_added items element semantics _
  next key entry members _ => exact mapViolations_added members key entry _ _
  next => rfl

theorem checkedViolations_added (hsite : IsSteadyAt site) :
    violationsUnder (site.path.fields (name :: names)) (c.checkedViolations value site) =
      violationsUnder (site.path.fields (name :: names))
        (c.checkedViolations value site.fresh) := by
  have hshallow : site.fresh.isShallow = site.isShallow := rfl
  have hrules : c.rulesAt site.fresh = c.rulesAt site := rfl
  rw [checkedViolations, checkedViolations, violationsUnder_append, violationsUnder_append,
    hshallow, hrules]
  congr 1
  · apply violationsUnder_flatMap_congr
    intro rule hrule
    exact ruleViolations_added hold hadded ih (isSteady_of_mem_rulesAt hschema hsite hrule)
  · split
    · rfl
    · exact insideViolations_added hschema hold hadded ih _

end

include hschema in
/-- The induction is on the names. As long as the walk has not come to the end of the path, there is
an earlier version that differs; at the end the earlier version is null. -/
theorem keepsAdded (names : List String) : c.KeepsAdded names := by
  induction names with
  | nil =>
    intro value site old hsite hold hadded
    have hnull : old = .null := Value.eq_null hadded.unset
    subst hnull
    have hset : value.isNull = false := hadded.set
    rw [walk_of_unset hsite hold hset]
  | cons name names ih =>
    intro value site old hsite hold hadded
    have hchanged : site.isUnchanged value = false := by
      rw [Site.isUnchanged, hold]
      exact hadded.ne
    exact walk_fresh_congr (violationsUnder _) hchanged (isOnChange_ownConstraints hsite)
      (checkedViolations_added hschema hold hadded ih hsite)

end Context

/-- Where fields lead to a value that was unset before, its violations on update and those on
creation are the same, those of unions around it among them, if no rule of the schema is on
change. -/
theorem validate_update_added {schema : Schema} {name : String}
    (hknown : schema.contains name = true) (hsteady : ∀ rule ∈ schema.rules, rule.IsSteady)
    (gates : GateView) {new old : Value} {names : List String}
    (hadded : IsAddedAt names new old) :
    ∃ updated created, validate schema name gates new (some old) = .ok updated ∧
      validate schema name gates new none = .ok created ∧
      violationsUnder (Path.root.fields names) updated =
        violationsUnder (Path.root.fields names) created := by
  obtain ⟨type, -, hvalidate⟩ := Schema.validate_of_contains hknown
  have hkeeps : Context.KeepsAdded ⟨schema, gates⟩ names := Context.keepsAdded hsteady names
  exact ⟨_, _, hvalidate gates new (some old), hvalidate gates new none,
    hkeeps new (.root type.plan (some old)) old nofun rfl hadded⟩

/-- A car has an engine or a motor, as its drive says. Engines are strong and named. -/
def garageTypes : Universe := Catalog.ofList
  [⟨"Engine", [], .struct
    [⟨"Name", none, .scalar .string, ["+k8s:required"]⟩,
      ⟨"Power", none, .scalar .int, ["+k8s:minimum=10"]⟩]⟩,
    ⟨"Car", [], .struct
      [⟨"Drive", none, .scalar .string, ["+k8s:unionDiscriminator"]⟩,
        ⟨"Engine", none, .pointer (.named "Engine"), ["+k8s:unionMember"]⟩,
        ⟨"Motor", none, .pointer (.scalar .string), ["+k8s:unionMember"]⟩]⟩,
    ⟨"Garage", [], .struct [⟨"Car", none, .named "Car", []⟩]⟩]

/-- A car with a motor, and with this engine. -/
def garageWith (engine : Value) : Value :=
  .ofMembers [("car", .ofMembers
    [("drive", .string "Motor"), ("motor", .string "small"), ("engine", engine)])]

/-- A car that has been driven by a motor gets a weak engine without a name as well. -/
theorem validate_update_added_garage :
    (compile garageTypes .default).schema.contains "Garage" = true ∧
      (∀ rule ∈ (compile garageTypes .default).schema.rules, rule.IsSteady) ∧
      IsAddedAt ["car", "engine"] (garageWith (.ofMembers [("power", .ofInt 5)]))
        (garageWith .null) ∧
      ∃ updated created,
        validate (compile garageTypes .default).schema "Garage" (fun _ => false)
          (garageWith (.ofMembers [("power", .ofInt 5)])) (some (garageWith .null)) =
            .ok updated ∧
        validate (compile garageTypes .default).schema "Garage" (fun _ => false)
          (garageWith (.ofMembers [("power", .ofInt 5)])) none = .ok created ∧
        (violationsUnder (Path.root.fields ["car", "engine"]) updated).map Violation.kind =
          [.required, .invalid, .forbidden] ∧
        violationsUnder (Path.root.fields ["car", "engine"]) updated =
          violationsUnder (Path.root.fields ["car", "engine"]) created := by
  have hknown : (compile garageTypes .default).schema.contains "Garage" = true := by
    decide +kernel
  have hsteady : ∀ rule ∈ (compile garageTypes .default).schema.rules, rule.IsSteady := by
    decide +kernel
  have hadded : IsAddedAt ["car", "engine"] (garageWith (.ofMembers [("power", .ofInt 5)]))
      (garageWith .null) := by
    refine ⟨rfl, rfl, fun outer houter hne => ?_⟩
    rcases List.prefix_cons_iff.mp houter with rfl | ⟨rest, rfl, hrest⟩
    · rfl
    · rcases List.prefix_cons_iff.mp hrest with rfl | ⟨rest, rfl, hend⟩
      · rfl
      · cases List.prefix_nil.mp hend
        exact absurd rfl hne
  obtain ⟨updated, created, hupdated, hcreated, hsame⟩ :=
    validate_update_added hknown hsteady (fun _ => false) hadded
  have hkinds : (validate (compile garageTypes .default).schema "Garage" (fun _ => false)
      (garageWith (.ofMembers [("power", .ofInt 5)])) (some (garageWith .null))).toOption.map
        (fun found => (violationsUnder (Path.root.fields ["car", "engine"]) found).map
          Violation.kind) = some [.required, .invalid, .forbidden] := by
    decide +kernel
  rw [hupdated] at hkinds
  exact ⟨hknown, hsteady, hadded, updated, created, hupdated, hcreated, Option.some.inj hkinds,
    hsame⟩

end TaggedSchema
