import Mathlib.Data.List.Nodup
import TaggedSchema.Proofs.Schema.Compiled

/-!
# How markers form unions

The unions of a struct are formed by the markers of its fields and by nothing else. A group has one
member for each marker that names the group, in the order of the markers, and so with the
discriminator. Markers are taken from the rules of a field and from those of single items of it.
-/

namespace TaggedSchema

/-- A constraint at a field, or at one item of it. -/
structure Marker where
  /-- The name of the field in instances. -/
  field : String
  selector : Option ItemSelector
  constraint : Constraint

/-- What a rule of a field says where unions are looked for: at the field or at an item of it, and
under no condition. -/
def Rule.marker? (field : String) : Rule → Option Marker
  | within (.item selector) inner _ => inner.constraint?.map (Marker.mk field (some selector))
  | rule => rule.constraint?.map (Marker.mk field none)

def CompiledField.markers (field : CompiledField) : List Marker :=
  field.rules.filterMap (Rule.marker? field.jsonName)

def CompiledStruct.markers (body : CompiledStruct) : List Marker :=
  body.fields.flatMap CompiledField.markers

namespace Marker

/-- What the marker adds to the union with this name. -/
def unionMember? (name : String) : Marker → Option UnionMember
  | ⟨field, selector, .unionMember union member⟩ =>
    if union = name then some ⟨member, field, selector⟩ else none
  | _ => none

/-- The field that the marker makes the discriminator of the union with this name. -/
def discriminator? (name : String) : Marker → Option String
  | ⟨field, _, .unionDiscriminator union⟩ => if union = name then some field else none
  | _ => none

/-- What the marker adds to the zero-or-one group with this name. -/
def zeroOrOneMember? (name : String) : Marker → Option UnionMember
  | ⟨field, selector, .zeroOrOneOf group member⟩ =>
    if group = name then some ⟨member, field, selector⟩ else none
  | _ => none

theorem field_of_unionMember? {name : String} {marker : Marker} {member : UnionMember}
    (h : marker.unionMember? name = some member) : marker.field = member.field := by
  rw [unionMember?.eq_def] at h
  split at h
  next =>
    obtain ⟨-, ⟨⟩⟩ := Option.ite_none_right_eq_some.mp h
    rfl
  next => cases h

theorem field_of_zeroOrOneMember? {name : String} {marker : Marker} {member : UnionMember}
    (h : marker.zeroOrOneMember? name = some member) : marker.field = member.field := by
  rw [zeroOrOneMember?.eq_def] at h
  split at h
  next =>
    obtain ⟨-, ⟨⟩⟩ := Option.ite_none_right_eq_some.mp h
    rfl
  next => cases h

end Marker

/-- What markers add to the groups of one kind. -/
structure MarkerKind where
  member? : (name : String) → Marker → Option UnionMember
  discriminator? : (name : String) → Marker → Option String

namespace MarkerKind

def union : MarkerKind := ⟨Marker.unionMember?, Marker.discriminator?⟩

def zeroOrOne : MarkerKind := ⟨Marker.zeroOrOneMember?, fun _ _ => none⟩

variable {kind : MarkerKind} {name : String} {marker : Marker} {markers : List Marker}
variable {groups groups' : List UnionGroup}

/-- The marker adds nothing to the group with this name. -/
def IsSilent (kind : MarkerKind) (name : String) (marker : Marker) : Prop :=
  kind.member? name marker = none ∧ kind.discriminator? name marker = none

/-- The group has what the markers add to it, each of them once. -/
structure Forms (kind : MarkerKind) (markers : List Marker) (group : UnionGroup) : Prop where
  members : group.members = markers.filterMap (kind.member? group.name)
  discriminator : group.discriminator.toList = markers.filterMap (kind.discriminator? group.name)

/-- There is one group for each name that a marker adds to, and the markers form all groups. -/
structure FormsAll (kind : MarkerKind) (markers : List Marker) (groups : List UnionGroup) :
    Prop where
  distinct : (groups.map UnionGroup.name).Nodup
  forms : ∀ group ∈ groups, kind.Forms markers group
  named : ∀ marker ∈ markers, ∀ name, ¬kind.IsSilent name marker →
    ∃ group ∈ groups, group.name = name

theorem filterMap_concat {α β : Type} (f : α → Option β) (taken : List α) (next : α) :
    (taken ++ [next]).filterMap f = taken.filterMap f ++ (f next).toList := by
  rw [List.filterMap_append, List.filterMap_cons]
  cases f next <;> rfl

theorem formsAll_nil (kind : MarkerKind) : kind.FormsAll [] [] :=
  ⟨List.nodup_nil, nofun, nofun⟩

theorem union_isSilent {field : String} {selector : Option ItemSelector} {constraint : Constraint}
    (h : constraint.isUnionMarker = false) :
    union.IsSilent name ⟨field, selector, constraint⟩ := by
  cases constraint <;> first | exact ⟨rfl, rfl⟩ | cases h

theorem zeroOrOne_isSilent {field : String} {selector : Option ItemSelector}
    {constraint : Constraint} (h : constraint.isUnionMarker = false) :
    zeroOrOne.IsSilent name ⟨field, selector, constraint⟩ := by
  cases constraint <;> first | exact ⟨rfl, rfl⟩ | cases h

theorem Forms.silent {group : UnionGroup} (h : kind.Forms markers group)
    (hsilent : kind.IsSilent group.name marker) : kind.Forms (markers ++ [marker]) group := by
  obtain ⟨hmember, hdiscriminator⟩ := hsilent
  constructor
  · rw [filterMap_concat, hmember, Option.toList_none, List.append_nil, h.members]
  · rw [filterMap_concat, hdiscriminator, Option.toList_none, List.append_nil, h.discriminator]

theorem FormsAll.silent (h : kind.FormsAll markers groups)
    (hsilent : ∀ name, kind.IsSilent name marker) :
    kind.FormsAll (markers ++ [marker]) groups := by
  refine ⟨h.distinct, fun group hgroup => (h.forms group hgroup).silent (hsilent _), ?_⟩
  intro other hother name hname
  rcases List.mem_append.mp hother with hother | hother
  · exact h.named other hother name hname
  · rw [List.mem_singleton.mp hother] at hname
    exact absurd (hsilent name) hname

/-- The change adds to the group with this name what the marker adds to it. -/
def Adds (kind : MarkerKind) (name : String) (marker : Marker)
    (change : UnionGroup → Except BuildError UnionGroup) : Prop :=
  ∀ group group', group.name = name → change group = .ok group' → group'.name = name ∧
    group'.members = group.members ++ (kind.member? name marker).toList ∧
    group'.discriminator.toList =
      group.discriminator.toList ++ (kind.discriminator? name marker).toList

end MarkerKind

namespace Unions

variable {name : String} {change : UnionGroup → Except BuildError UnionGroup}
variable {groups groups' : List UnionGroup}

/-- One group is changed in its place, or there is none with the name and a new one is added. -/
theorem update_eq_ok (h : update name change groups = .ok groups') :
    (∃ before group after group', groups = before ++ group :: after ∧ group.name = name ∧
        change group = .ok group' ∧ groups' = before ++ group' :: after) ∨
      (∀ group ∈ groups, group.name ≠ name) ∧
        ∃ group', change ⟨name, none, []⟩ = .ok group' ∧ groups' = groups ++ [group'] := by
  induction groups generalizing groups' with
  | nil =>
    simp only [update, bind_succeeds_iff, pure_succeeds_iff] at h
    obtain ⟨group', hchange, rfl⟩ := h
    exact .inr ⟨nofun, group', hchange, rfl⟩
  | cons group groups ih =>
    rw [update] at h
    split at h
    next hname =>
      simp only [bind_succeeds_iff, pure_succeeds_iff] at h
      obtain ⟨group', hchange, rfl⟩ := h
      exact .inl ⟨[], group, groups, group', rfl, hname, hchange, rfl⟩
    next hname =>
      simp only [bind_succeeds_iff, pure_succeeds_iff] at h
      obtain ⟨others, hothers, rfl⟩ := h
      rcases ih hothers with ⟨before, found, after, found', rfl, hfound, hchange, rfl⟩ |
        ⟨hnone, group', hchange, rfl⟩
      · exact .inl ⟨group :: before, found, after, found', rfl, hfound, hchange, rfl⟩
      · exact .inr ⟨List.forall_mem_cons.mpr ⟨hname, hnone⟩, group', hchange, rfl⟩

end Unions

namespace MarkerKind

variable {kind : MarkerKind} {name : String} {marker : Marker} {markers : List Marker}
variable {groups groups' : List UnionGroup} {change : UnionGroup → Except BuildError UnionGroup}

theorem Forms.add {group group' : UnionGroup} (h : kind.Forms markers group)
    (hadds : kind.Adds name marker change) (hname : group.name = name)
    (hchange : change group = .ok group') :
    group'.name = name ∧ kind.Forms (markers ++ [marker]) group' := by
  obtain ⟨hname', hmembers, hdiscriminator⟩ := hadds group group' hname hchange
  refine ⟨hname', ⟨?_, ?_⟩⟩
  · rw [hmembers, h.members, hname, hname', filterMap_concat]
  · rw [hdiscriminator, h.discriminator, hname, hname', filterMap_concat]

/-- A group that no marker has named is formed by the markers: it is empty. -/
theorem FormsAll.forms_new (h : kind.FormsAll markers groups)
    (hnone : ∀ group ∈ groups, group.name ≠ name) : kind.Forms markers ⟨name, none, []⟩ := by
  have hsilent : ∀ marker ∈ markers, kind.IsSilent name marker := by
    intro marker hmarker
    by_contra hadds
    obtain ⟨group, hgroup, hname⟩ := h.named marker hmarker name hadds
    exact hnone group hgroup hname
  constructor
  · exact (List.filterMap_eq_nil_iff.mpr fun marker hmarker => (hsilent marker hmarker).1).symm
  · exact (List.filterMap_eq_nil_iff.mpr fun marker hmarker => (hsilent marker hmarker).2).symm

section

variable {group' : UnionGroup} (h : kind.FormsAll markers groups)
variable (hforms : kind.Forms (markers ++ [marker]) group') (hname : group'.name = name)
variable (hothers : ∀ other, other ≠ name → kind.IsSilent other marker)

include h hforms hname hothers

/-- If the changed group stays in place and the others hear nothing, all markers are taken in. -/
theorem FormsAll.replace {before after : List UnionGroup} {group : UnionGroup}
    (hgroups : groups = before ++ group :: after) (hsame : group.name = name) :
    kind.FormsAll (markers ++ [marker]) (before ++ group' :: after) := by
  have hmiddle {first other : UnionGroup} :
      other ∈ before ++ first :: after ↔ other = first ∨ other ∈ before ++ after :=
    List.perm_middle.mem_iff.trans List.mem_cons
  subst hgroups
  obtain ⟨hnodup, hall, hnamed⟩ := h
  rw [List.map_append, List.map_cons, hsame, ← hname] at hnodup
  refine ⟨?distinct, ?forms, ?named⟩
  case distinct =>
    rw [List.map_append, List.map_cons]
    exact hnodup
  case forms =>
    intro other hother
    rcases hmiddle.mp hother with rfl | hother
    · exact hforms
    · -- Names are distinct, so that the marker is not for the other groups.
      have hne : other.name ≠ name := by
        rw [List.nodup_middle, List.nodup_cons, ← List.map_append, hname] at hnodup
        exact fun hsame => hnodup.1 (List.mem_map.mpr ⟨other, hother, hsame⟩)
      exact (hall other (hmiddle.mpr (.inr hother))).silent (hothers _ hne)
  case named =>
    intro other hother otherName hadded
    rcases List.mem_append.mp hother with hother | hother
    · obtain ⟨found, hfound, hfoundName⟩ := hnamed other hother otherName hadded
      rcases hmiddle.mp hfound with rfl | hfound
      · exact ⟨group', hmiddle.mpr (.inl rfl), hname.trans (hsame.symm.trans hfoundName)⟩
      · exact ⟨found, hmiddle.mpr (.inr hfound), hfoundName⟩
    · rw [List.mem_singleton.mp hother] at hadded
      exact ⟨group', hmiddle.mpr (.inl rfl), hname.trans
        (by_contra fun hne => hadded (hothers otherName (Ne.symm hne)))⟩

/-- The same if the group is a new one. -/
theorem FormsAll.append (hnone : ∀ group ∈ groups, group.name ≠ name) :
    kind.FormsAll (markers ++ [marker]) (groups ++ [group']) := by
  refine ⟨?distinct, ?forms, ?named⟩
  case distinct =>
    rw [List.map_append, List.map_singleton, hname, ← List.concat_eq_append]
    refine h.distinct.concat fun hmem => ?_
    obtain ⟨group, hgroup, hsame⟩ := List.mem_map.mp hmem
    exact hnone group hgroup hsame
  case forms =>
    intro other hother
    rcases List.mem_append.mp hother with hother | hother
    · exact (h.forms other hother).silent (hothers _ (hnone other hother))
    · rw [List.mem_singleton.mp hother]
      exact hforms
  case named =>
    intro other hother otherName hadded
    rcases List.mem_append.mp hother with hother | hother
    · obtain ⟨found, hfound, hsame⟩ := h.named other hother otherName hadded
      exact ⟨found, List.mem_append_left _ hfound, hsame⟩
    · rw [List.mem_singleton.mp hother] at hadded
      exact ⟨group', List.mem_append_right _ (List.mem_singleton_self _), hname.trans
        (by_contra fun hne => hadded (hothers otherName (Ne.symm hne)))⟩

end

/-- The step: an update of one group takes in a marker that adds to that group only. -/
theorem FormsAll.update (h : kind.FormsAll markers groups)
    (hupdate : Unions.update name change groups = .ok groups')
    (hadds : kind.Adds name marker change)
    (hothers : ∀ other, other ≠ name → kind.IsSilent other marker) :
    kind.FormsAll (markers ++ [marker]) groups' := by
  rcases Unions.update_eq_ok hupdate with
    ⟨before, group, after, group', rfl, hname, hchange, rfl⟩ | ⟨hnone, group', hchange, rfl⟩
  · have hmem : group ∈ before ++ group :: after := List.mem_append_right _ List.mem_cons_self
    obtain ⟨hname', hforms⟩ := (h.forms group hmem).add hadds hname hchange
    exact h.replace hforms hname' hothers rfl hname
  · obtain ⟨hname, hforms⟩ := (h.forms_new hnone).add hadds rfl hchange
    exact h.append hforms hname hothers hnone

end MarkerKind

namespace Unions

variable {u u' : Unions} {markers : List Marker} {field : String} {selector : Option ItemSelector}
variable {rule : Rule} {rules : List Rule}

/-- The markers form the groups of both kinds. -/
structure FormedBy (u : Unions) (markers : List Marker) : Prop where
  unions : MarkerKind.union.FormsAll markers u.unions
  zeroOrOne : MarkerKind.zeroOrOne.FormsAll markers u.zeroOrOne

theorem formedBy_empty : empty.FormedBy [] :=
  ⟨MarkerKind.formsAll_nil _, MarkerKind.formsAll_nil _⟩

/-- What a rule says of a field or of an item of it is taken in once. -/
theorem FormedBy.add (h : u.FormedBy markers) (hadd : u.add field selector rule = .ok u') :
    u'.FormedBy (markers ++ (rule.constraint?.map (Marker.mk field selector)).toList) := by
  unfold Unions.add at hadd
  split at hadd
  next union member tag =>
    simp only [bind_succeeds_iff, pure_succeeds_iff] at hadd
    obtain ⟨unions, hunions, rfl⟩ := hadd
    refine ⟨h.unions.update hunions ?_ ?_, h.zeroOrOne.silent fun _ => ⟨rfl, rfl⟩⟩
    · rintro group group' rfl hchange
      dsimp only at hchange
      split at hchange
      next => cases hchange
      next =>
        cases hchange
        simp [MarkerKind.union, Marker.unionMember?, Marker.discriminator?]
    · intro other hother
      exact ⟨if_neg (Ne.symm hother), rfl⟩
  next group member tag =>
    simp only [bind_succeeds_iff, pure_succeeds_iff] at hadd
    obtain ⟨zeroOrOne, hzeroOrOne, rfl⟩ := hadd
    refine ⟨h.unions.silent fun _ => ⟨rfl, rfl⟩, h.zeroOrOne.update hzeroOrOne ?_ ?_⟩
    · rintro group group' rfl hchange
      cases hchange
      simp [MarkerKind.zeroOrOne, Marker.zeroOrOneMember?]
    · intro other hother
      exact ⟨if_neg (Ne.symm hother), rfl⟩
  next union tag =>
    simp only [bind_succeeds_iff, pure_succeeds_iff] at hadd
    obtain ⟨unions, hunions, rfl⟩ := hadd
    refine ⟨h.unions.update hunions ?_ ?_, h.zeroOrOne.silent fun _ => ⟨rfl, rfl⟩⟩
    · rintro group group' rfl hchange
      dsimp only at hchange
      split at hchange
      next => cases hchange
      next hfirst =>
        cases hchange
        rw [Option.not_isSome_iff_eq_none] at hfirst
        simp [MarkerKind.union, Marker.unionMember?, Marker.discriminator?, hfirst]
    · intro other hother
      exact ⟨rfl, if_neg (Ne.symm hother)⟩
  next hmember hgroup hdiscriminator =>
    cases hadd
    cases rule with
    | leaf constraint tag =>
      have hmarker : constraint.isUnionMarker = false := by
        cases constraint <;> first | rfl | simp_all
      exact ⟨h.unions.silent fun _ => MarkerKind.union_isSilent hmarker,
        h.zeroOrOne.silent fun _ => MarkerKind.zeroOrOne_isSilent hmarker⟩
    | within | guarded => simpa [Rule.constraint?] using h

/-- So is what a rule of a field says. -/
theorem FormedBy.addFieldRule (h : u.FormedBy markers)
    (hadd : u.addFieldRule field rule = .ok u') :
    u'.FormedBy (markers ++ (rule.marker? field).toList) := by
  rw [Unions.addFieldRule, bind_succeeds_iff] at hadd
  obtain ⟨v, hv, hadd⟩ := hadd
  split at hadd
  next selector inner tag =>
    -- The rule itself is no constraint on the field, so only the one on the item counts.
    cases hv
    exact h.add hadd
  next hitem =>
    cases hadd
    have hmarker : rule.marker? field = rule.constraint?.map (Marker.mk field none) := by
      rw [Rule.marker?.eq_def]
      split
      next => exact absurd rfl (hitem _ _ _)
      next => rfl
    rw [hmarker]
    exact h.add hv

/-- The run over the rules of a field. -/
theorem FormedBy.addFieldRules (h : u.FormedBy markers)
    (hadd : rules.foldlM (Unions.addFieldRule field) u = .ok u') :
    u'.FormedBy (markers ++ rules.filterMap (Rule.marker? field)) := by
  refine foldlM_keeps (fun v taken => v.FormedBy (markers ++ taken.filterMap (Rule.marker? field)))
    ?_ ?_ hadd
  · intro v taken rule next hv hnext
    rw [MarkerKind.filterMap_concat, ← List.append_assoc]
    exact hv.addFieldRule hnext
  · simpa using h

end Unions

namespace Compiler

variable {c : Compiler}

/-- The run over the fields of a struct, each of which adds the markers that its rules are. -/
theorem fields_formedBy {type : String} {u v : Unions} {markers : List Marker}
    {fields : List FieldDef} {compiled : List CompiledField} (hu : u.FormedBy markers)
    (h : c.fields type u fields = .ok (compiled, v)) :
    v.FormedBy (markers ++ compiled.flatMap CompiledField.markers) := by
  induction fields generalizing u markers compiled with
  | nil =>
    cases h
    simpa using hu
  | cons field fields ih =>
    obtain ⟨first, u', others, hfirst, hothers, rfl⟩ := fields_cons_eq_ok h
    obtain ⟨rules, plan, -, -, hunions, rfl⟩ := field_eq_ok hfirst
    have hu' := hu.addFieldRules hunions
    rw [List.flatMap_cons, ← List.append_assoc]
    exact ih hu' hothers

theorem structBody_formedBy {type : String} {fields : List FieldDef} {body : CompiledStruct}
    (h : c.structBody type fields = .ok body) :
    MarkerKind.union.FormsAll body.markers body.unions ∧
      MarkerKind.zeroOrOne.FormsAll body.markers body.zeroOrOne := by
  obtain ⟨u, hfields, hunions, hzeroOrOne⟩ := structBody_eq_ok h
  obtain ⟨hforms, hzeroForms⟩ := fields_formedBy Unions.formedBy_empty hfields
  rw [List.nil_append] at hforms hzeroForms
  rw [hunions, hzeroOrOne]
  exact ⟨hforms, hzeroForms⟩

end Compiler

/-- In a schema the unions of a struct are formed by the markers of its fields. -/
theorem formsAll_of_struct? {types : Universe} {options : Options} {name : String}
    {body : CompiledStruct} (h : (compile types options).schema.struct? name = some body) :
    MarkerKind.union.FormsAll body.markers body.unions ∧
      MarkerKind.zeroOrOne.FormsAll body.markers body.zeroOrOne := by
  obtain ⟨type, fields, hstruct⟩ := structBody_of_struct? h
  exact Compiler.structBody_formedBy hstruct

theorem Rule.field_of_marker? {field : String} {rule : Rule} {marker : Marker}
    (h : rule.marker? field = some marker) : marker.field = field := by
  rw [Rule.marker?.eq_def] at h
  split at h
  all_goals
    obtain ⟨constraint, -, rfl⟩ := Option.map_eq_some_iff.mp h
    rfl

theorem CompiledStruct.exists_field_of_marker {body : CompiledStruct} {marker : Marker}
    (h : marker ∈ body.markers) : ∃ field ∈ body.fields, field.jsonName = marker.field := by
  obtain ⟨field, hfield, hmarker⟩ := List.mem_flatMap.mp h
  obtain ⟨rule, -, hrule⟩ := List.mem_filterMap.mp hmarker
  exact ⟨field, hfield, (Rule.field_of_marker? hrule).symm⟩

/-- Every member is one of a field of the struct. -/
theorem exists_field_of_member {types : Universe} {options : Options} {name : String}
    {body : CompiledStruct} (h : (compile types options).schema.struct? name = some body)
    {group : UnionGroup} (hgroup : group ∈ body.unions ++ body.zeroOrOne) {member : UnionMember}
    (hmember : member ∈ group.members) :
    ∃ field ∈ body.fields, field.jsonName = member.field := by
  obtain ⟨hunions, hzeroOrOne⟩ := formsAll_of_struct? h
  obtain ⟨marker, hmarker, hsame⟩ : ∃ marker ∈ body.markers, marker.field = member.field := by
    rcases List.mem_append.mp hgroup with hgroup | hgroup
    · rw [(hunions.forms group hgroup).members] at hmember
      obtain ⟨marker, hmarker, hadds⟩ := List.mem_filterMap.mp hmember
      exact ⟨marker, hmarker, Marker.field_of_unionMember? hadds⟩
    · rw [(hzeroOrOne.forms group hgroup).members] at hmember
      obtain ⟨marker, hmarker, hadds⟩ := List.mem_filterMap.mp hmember
      exact ⟨marker, hmarker, Marker.field_of_zeroOrOneMember? hadds⟩
  obtain ⟨field, hfield, hname⟩ := body.exists_field_of_marker hmarker
  exact ⟨field, hfield, hname.trans hsame⟩

end TaggedSchema
