import TaggedSchema.Proofs.Schema.Markers

/-!
# Which structs are compiled

A struct is compiled if each of its fields is by itself and what the fields say about unions goes
together: every member and every discriminator is named once, and a union with a discriminator has
members. In which order they say it makes no difference to that.
-/

namespace TaggedSchema

/-- Whether the constraint may be said only once in a struct. -/
def Constraint.isUnrepeatable : Constraint → Bool
  | unionMember .. | unionDiscriminator .. => true
  | _ => false

namespace Marker

variable {markers markers' : List Marker} {marker : Marker}

/-- No member of a union and no discriminator is named twice. -/
def Distinct (markers : List Marker) : Prop :=
  ((markers.map constraint).filter Constraint.isUnrepeatable).Nodup

/-- The marker does not repeat what may be said only once. -/
def IsNew (markers : List Marker) (marker : Marker) : Prop :=
  marker.constraint.isUnrepeatable = true → marker.constraint ∉ markers.map constraint

theorem distinct_nil : Distinct [] := List.nodup_nil

theorem distinct_concat_iff :
    Distinct (markers ++ [marker]) ↔ Distinct markers ∧ IsNew markers marker := by
  rw [Distinct, List.map_append, List.map_singleton, List.filter_append, List.filter_singleton,
    Distinct, IsNew]
  cases hkind : marker.constraint.isUnrepeatable with
  | false => simp
  | true => simp [← List.concat_eq_append, List.nodup_concat, hkind, and_comm]

theorem Distinct.of_append (h : Distinct (markers ++ markers')) : Distinct markers := by
  rw [Distinct, List.map_append, List.filter_append] at h
  exact h.of_append_left

/-- What the markers say about unions goes together. -/
structure Agree (markers : List Marker) : Prop where
  distinct : Distinct markers
  members : ∀ union, .unionDiscriminator union ∈ markers.map constraint →
    ∃ member, .unionMember union member ∈ markers.map constraint

theorem Agree.perm (hperm : markers'.Perm markers) (h : Agree markers) : Agree markers' where
  distinct := (((hperm.map constraint).filter _).nodup_iff).mpr h.distinct
  members := by
    simp only [(hperm.map constraint).mem_iff]
    exact h.members

theorem unionMember?_isSome_iff {union member : String} :
    (∃ found, marker.unionMember? union = some found ∧ found.name = member) ↔
      marker.constraint = .unionMember union member := by
  obtain ⟨field, selector, constraint⟩ := marker
  cases constraint <;> simp [unionMember?]

theorem discriminator?_isSome_iff {union : String} :
    (∃ found, marker.discriminator? union = some found) ↔
      marker.constraint = .unionDiscriminator union := by
  obtain ⟨field, selector, constraint⟩ := marker
  cases constraint <;> simp [discriminator?]

end Marker

/-! ## Groups -/

namespace Unions

variable {name : String} {change : UnionGroup → Except BuildError UnionGroup}
variable {groups : List UnionGroup}

/-- The group with this name, or the new one. -/
def groupOf (name : String) (groups : List UnionGroup) : UnionGroup :=
  (groups.find? fun group => group.name = name).getD ⟨name, none, []⟩

/-- An update succeeds if the change of the group does. -/
theorem exists_update_iff :
    (∃ groups', update name change groups = .ok groups') ↔
      ∃ group', change (groupOf name groups) = .ok group' := by
  induction groups with
  | nil => simp [update, groupOf, map_succeeds_iff]
  | cons group groups ih =>
    rw [update, groupOf, List.find?_cons]
    by_cases hname : group.name = name
    · simp [hname, map_succeeds_iff]
    · rw [if_neg hname, decide_eq_false hname, ← groupOf, ← ih]
      simp [map_succeeds_iff]

end Unions

theorem MarkerKind.FormsAll.groupOf {kind : MarkerKind} {markers : List Marker}
    {groups : List UnionGroup} (h : kind.FormsAll markers groups) (name : String) :
    (Unions.groupOf name groups).name = name ∧
      kind.Forms markers (Unions.groupOf name groups) := by
  rw [Unions.groupOf]
  cases hfind : groups.find? fun group => group.name = name with
  | none =>
    refine ⟨rfl, h.forms_new fun group hgroup => ?_⟩
    simpa using List.find?_eq_none.mp hfind group hgroup
  | some group =>
    refine ⟨?_, h.forms group (List.mem_of_find?_eq_some hfind)⟩
    simpa using List.find?_some hfind

/-- The members of a group are those that markers name. -/
theorem MarkerKind.Forms.mem_members_iff {markers : List Marker} {group : UnionGroup}
    (h : MarkerKind.union.Forms markers group) (member : String) :
    (∃ found ∈ group.members, found.name = member) ↔
      .unionMember group.name member ∈ markers.map Marker.constraint := by
  rw [h.members]
  simp only [List.mem_filterMap, List.mem_map, ← Marker.unionMember?_isSome_iff]
  constructor
  · rintro ⟨found, ⟨marker, hmarker, hfound⟩, hname⟩
    exact ⟨marker, hmarker, found, hfound, hname⟩
  · rintro ⟨marker, hmarker, found, hfound, hname⟩
    exact ⟨found, ⟨marker, hmarker, hfound⟩, hname⟩

theorem MarkerKind.Forms.isSome_discriminator_iff {markers : List Marker} {group : UnionGroup}
    (h : MarkerKind.union.Forms markers group) :
    group.discriminator.isSome = true ↔
      .unionDiscriminator group.name ∈ markers.map Marker.constraint := by
  have hnone : group.discriminator = none ↔
      markers.filterMap (Marker.discriminator? group.name) = [] := by
    rw [← Option.toList_eq_nil_iff, h.discriminator]
    rfl
  rw [Option.isSome_iff_ne_none, Ne, hnone, List.filterMap_eq_nil_iff, List.mem_map]
  simp only [← Marker.discriminator?_isSome_iff, ← Option.isSome_iff_exists,
    ← Option.not_isSome_iff_eq_none]
  push Not
  rfl

/-! ## Rules of a field -/

namespace Unions

variable {u : Unions} {markers : List Marker} {field : String} {selector : Option ItemSelector}
variable {rule : Rule} {rules : List Rule}

/-- What a rule says is taken in unless it repeats what may be said only once. -/
theorem FormedBy.exists_add_iff (h : u.FormedBy markers) :
    (∃ u', u.add field selector rule = .ok u') ↔
      ∀ constraint, rule.constraint? = some constraint →
        Marker.IsNew markers ⟨field, selector, constraint⟩ := by
  cases rule with
  | within | guarded =>
    exact ⟨fun _ _ h => absurd h.symm (Option.some_ne_none _), fun _ => ⟨u, rfl⟩⟩
  | leaf constraint tag =>
    simp only [Rule.constraint?, Option.some.injEq, forall_eq', Marker.IsNew]
    cases constraint with
    | unionMember union member =>
      obtain ⟨hname, hforms⟩ := h.unions.groupOf union
      have hnamed := hforms.mem_members_iff member
      rw [hname] at hnamed
      simp only [Unions.add, bind_pure_comp, exists_map_succeeds_iff, exists_update_iff, ← hnamed]
      split
      next htaken => simpa [Constraint.isUnrepeatable] using htaken
      next hfree => simpa [Constraint.isUnrepeatable] using hfree
    | unionDiscriminator union =>
      obtain ⟨hname, hforms⟩ := h.unions.groupOf union
      have hnamed := hforms.isSome_discriminator_iff
      rw [hname] at hnamed
      simp only [Unions.add, bind_pure_comp, exists_map_succeeds_iff, exists_update_iff, ← hnamed]
      split
      next htaken => simp [Constraint.isUnrepeatable, htaken]
      next hfree => simp [Constraint.isUnrepeatable, hfree]
    | zeroOrOneOf group member =>
      simp only [Unions.add, bind_pure_comp, exists_map_succeeds_iff, exists_update_iff]
      exact ⟨fun _ h => absurd h Bool.false_ne_true, fun _ => ⟨_, rfl⟩⟩
    | _ => exact ⟨fun _ h => absurd h Bool.false_ne_true, fun _ => ⟨u, rfl⟩⟩

/-- So is what a rule of a field says. -/
theorem FormedBy.exists_addFieldRule_iff (h : u.FormedBy markers)
    (hdistinct : Marker.Distinct markers) :
    (∃ u', u.addFieldRule field rule = .ok u') ↔
      Marker.Distinct (markers ++ (rule.marker? field).toList) := by
  have hadd (selector : Option ItemSelector) (rule : Rule) :
      (∃ u', u.add field selector rule = .ok u') ↔
        Marker.Distinct
          (markers ++ (rule.constraint?.map (Marker.mk field selector)).toList) := by
    rw [h.exists_add_iff]
    cases rule.constraint? with
    | none => simp [hdistinct]
    | some constraint => simp [Marker.distinct_concat_iff, hdistinct]
  cases rule with
  | leaf constraint tag =>
    rw [Unions.addFieldRule, bind_pure]
    exact hadd none (.leaf constraint tag)
  | within place inner tag =>
    have hwhole := hadd none (.within place inner tag)
    cases place with
    | item selector => exact hadd (some selector) inner
    | eachVal | eachKey | subfield => exact hwhole
  | guarded condition inner tag => exact hadd none (.guarded condition inner tag)

/-- The run: the rules of a field are taken in if nothing is repeated. -/
theorem FormedBy.exists_addFieldRules_iff (h : u.FormedBy markers)
    (hdistinct : Marker.Distinct markers) :
    (∃ u', rules.foldlM (Unions.addFieldRule field) u = .ok u') ↔
      Marker.Distinct (markers ++ rules.filterMap (Rule.marker? field)) := by
  induction rules generalizing u markers with
  | nil => simp [pure_succeeds_iff, hdistinct]
  | cons rule rules ih =>
    have hfirst : (rule :: rules).filterMap (Rule.marker? field) =
        (rule.marker? field).toList ++ rules.filterMap (Rule.marker? field) := by
      cases hmarker : rule.marker? field <;> simp [hmarker]
    simp only [List.foldlM_cons, bind_succeeds_iff]
    rw [hfirst, ← List.append_assoc]
    constructor
    · rintro ⟨u', middle, hmiddle, hrest⟩
      have hdistinct' := (h.exists_addFieldRule_iff hdistinct).mp ⟨middle, hmiddle⟩
      exact (ih (h.addFieldRule hmiddle) hdistinct').mp ⟨u', hrest⟩
    · intro hall
      obtain ⟨middle, hmiddle⟩ := (h.exists_addFieldRule_iff hdistinct).mpr hall.of_append
      obtain ⟨u', hrest⟩ := (ih (h.addFieldRule hmiddle) hall.of_append).mpr hall
      exact ⟨u', middle, hmiddle, hrest⟩

/-- A discriminator has something to choose from. -/
theorem FormedBy.firstWithoutMembers_eq_none_iff (h : u.FormedBy markers) :
    u.firstWithoutMembers = none ↔
      ∀ union, .unionDiscriminator union ∈ markers.map Marker.constraint →
        ∃ member, .unionMember union member ∈ markers.map Marker.constraint := by
  simp only [firstWithoutMembers, List.find?_eq_none, Bool.and_eq_true, not_and,
    List.isEmpty_iff, List.eq_nil_iff_forall_not_mem, not_forall, not_not]
  constructor
  · intro hmembers union hunion
    obtain ⟨marker, hmarker, hconstraint⟩ := List.mem_map.mp hunion
    obtain ⟨found, hfound⟩ := Marker.discriminator?_isSome_iff.mpr hconstraint
    obtain ⟨group, hgroup, rfl⟩ := h.unions.named marker hmarker union fun hsilent =>
      Option.some_ne_none found (hfound.symm.trans hsilent.2)
    have hforms := h.unions.forms group hgroup
    obtain ⟨member, hmember⟩ :=
      hmembers group hgroup (hforms.isSome_discriminator_iff.mpr hunion)
    exact ⟨member.name, (hforms.mem_members_iff _).mp ⟨member, hmember, rfl⟩⟩
  · intro hmembers group hgroup hdiscriminator
    have hforms := h.unions.forms group hgroup
    obtain ⟨name, hname⟩ :=
      hmembers group.name (hforms.isSome_discriminator_iff.mp hdiscriminator)
    obtain ⟨member, hmember, -⟩ := (hforms.mem_members_iff name).mpr hname
    exact ⟨member, hmember⟩

end Unions

/-! ## Structs -/

namespace Compiler

variable {c : Compiler} {u v : Unions} {taken : List Marker} {field : FieldDef}
variable {fields : List FieldDef} {type : String}

/-- The field has rules, and a plan with these. -/
def Compilable (c : Compiler) (field : FieldDef) : Prop :=
  ∃ rules plan, c.fieldRules field = .ok rules ∧ c.plan field.type rules = .ok plan

/-- What a field says about unions. -/
def markers (c : Compiler) (field : FieldDef) : List Marker :=
  match c.fieldRules field with
  | .ok rules => rules.filterMap (Rule.marker? field.jsonName)
  | .error _ => []

theorem markers_of_fieldRules {rules : List Rule} (h : c.fieldRules field = .ok rules) :
    c.markers field = rules.filterMap (Rule.marker? field.jsonName) := by
  rw [markers, h]

theorem CompilesTo.markers {compiled : CompiledField} (h : c.CompilesTo field compiled) :
    compiled.markers = c.markers field := by
  rw [markers_of_fieldRules h.rules, CompiledField.markers, h.jsonName]

theorem flatMap_markers {compiled : List CompiledField}
    (h : List.Forall₂ c.CompilesTo fields compiled) :
    compiled.flatMap CompiledField.markers = fields.flatMap c.markers := by
  induction h with
  | nil => rfl
  | cons hfield _ ih => rw [List.flatMap_cons, List.flatMap_cons, hfield.markers, ih]

theorem field_formedBy (hu : u.FormedBy taken) {compiled : CompiledField}
    (h : c.field u field = .ok (compiled, v)) : v.FormedBy (taken ++ c.markers field) := by
  obtain ⟨rules, plan, hrules, -, hunions, -⟩ := field_eq_ok h
  rw [markers_of_fieldRules hrules]
  exact hu.addFieldRules hunions

theorem exists_field_iff (hu : u.FormedBy taken) (hdistinct : Marker.Distinct taken) :
    (∃ compiled v, c.field u field = .ok (compiled, v)) ↔
      c.Compilable field ∧ Marker.Distinct (taken ++ c.markers field) := by
  constructor
  · rintro ⟨compiled, v, hfield⟩
    obtain ⟨rules, plan, hrules, hplan, hunions, -⟩ := field_eq_ok hfield
    rw [markers_of_fieldRules hrules]
    exact ⟨⟨rules, plan, hrules, hplan⟩, (hu.exists_addFieldRules_iff hdistinct).mp ⟨v, hunions⟩⟩
  · rintro ⟨⟨rules, plan, hrules, hplan⟩, hall⟩
    rw [markers_of_fieldRules hrules] at hall
    obtain ⟨v, hunions⟩ := (hu.exists_addFieldRules_iff hdistinct).mpr hall
    simp only [Compiler.field, bind_succeeds_iff, pure_succeeds_iff]
    exact ⟨_, v, rules, hrules, plan, hplan, v, hunions, rfl⟩

/-- The induction is on the fields, and what those before have said is distinct. -/
theorem exists_fields_iff (hu : u.FormedBy taken) (hdistinct : Marker.Distinct taken) :
    (∃ compiled v, c.fields type u fields = .ok (compiled, v)) ↔
      (∀ field ∈ fields, c.Compilable field) ∧
        Marker.Distinct (taken ++ fields.flatMap c.markers) := by
  induction fields generalizing u taken with
  | nil => simp [Compiler.fields, hdistinct]
  | cons field fields ih =>
    rw [List.forall_mem_cons, List.flatMap_cons, ← List.append_assoc]
    constructor
    · rintro ⟨compiled, v, h⟩
      obtain ⟨first, u', others, hfirst, hothers, -⟩ := fields_cons_eq_ok h
      obtain ⟨hcompiles, hdistinct'⟩ := (exists_field_iff hu hdistinct).mp ⟨first, u', hfirst⟩
      obtain ⟨hrest, hall⟩ := (ih (field_formedBy hu hfirst) hdistinct').mp ⟨others, v, hothers⟩
      exact ⟨⟨hcompiles, hrest⟩, hall⟩
    · rintro ⟨⟨hcompiles, hrest⟩, hall⟩
      obtain ⟨first, u', hfirst⟩ :=
        (exists_field_iff hu hdistinct).mpr ⟨hcompiles, hall.of_append⟩
      obtain ⟨others, v, hothers⟩ :=
        (ih (field_formedBy hu hfirst) hall.of_append).mpr ⟨hrest, hall⟩
      exact ⟨_, v, fields_cons_of_ok hfirst hothers⟩

/-- A struct is compiled if its fields are, one by one, and their markers agree. -/
theorem exists_structBody_iff :
    (∃ body, c.structBody type fields = .ok body) ↔
      (∀ field ∈ fields, c.Compilable field) ∧ Marker.Agree (fields.flatMap c.markers) := by
  have hfields : (∃ compiled u, c.fields type .empty fields = .ok (compiled, u)) ↔
      (∀ field ∈ fields, c.Compilable field) ∧ Marker.Distinct (fields.flatMap c.markers) :=
    exists_fields_iff Unions.formedBy_empty Marker.distinct_nil
  simp only [structBody_eq_ok_iff]
  constructor
  · rintro ⟨body, compiled, u, h, hmembers, -⟩
    obtain ⟨hcompiles, hdistinct⟩ := hfields.mp ⟨compiled, u, h⟩
    have hu := fields_formedBy Unions.formedBy_empty h
    rw [List.nil_append, flatMap_markers (fields_compilesTo h)] at hu
    exact ⟨hcompiles, hdistinct, hu.firstWithoutMembers_eq_none_iff.mp hmembers⟩
  · rintro ⟨hcompiles, hdistinct, hmembers⟩
    obtain ⟨compiled, u, h⟩ := hfields.mpr ⟨hcompiles, hdistinct⟩
    have hu := fields_formedBy Unions.formedBy_empty h
    rw [List.nil_append, flatMap_markers (fields_compilesTo h)] at hu
    exact ⟨_, compiled, u, h, hu.firstWithoutMembers_eq_none_iff.mpr hmembers, rfl⟩

end Compiler

end TaggedSchema
