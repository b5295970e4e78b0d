import Mathlib.Data.List.Nodup
import TaggedSchema.Proofs.Rule.Accepted
import TaggedSchema.Proofs.Schema.Compiled

/-!
# Where unions come from

Each member of a union and each discriminator is put down by a rule of a field, whose name in
instances it bears. Rules of unions are less than stable, so that such a field is not one that only
rules validate; and one of whose items a member is made is a list. The members of one union have
different names, so that a discriminator chooses one of them at most.
-/

namespace TaggedSchema

/-- One of the fields has this name, is not native, and is a list if a selector chooses an item of
it. -/
def Hosts (fields : List CompiledField) (jsonName : String) (selector : Option ItemSelector) :
    Prop :=
  ∃ field ∈ fields, field.jsonName = jsonName ∧ field.native = false ∧
    (selector.isSome = true → ∃ access element semantics,
      field.plan = .list access element semantics)

/-- The members and the discriminator of the group are of such fields. -/
structure UnionGroup.HostedBy (group : UnionGroup) (fields : List CompiledField) : Prop where
  members : ∀ member ∈ group.members, Hosts fields member.field member.selector
  discriminator : ∀ jsonName, group.discriminator = some jsonName → Hosts fields jsonName none

theorem Hosts.whole {fields : List CompiledField} {jsonName : String}
    {selector : Option ItemSelector} (h : Hosts fields jsonName selector) :
    Hosts fields jsonName none := by
  obtain ⟨field, hfield, hname, hnative, -⟩ := h
  exact ⟨field, hfield, hname, hnative, nofun⟩

namespace Unions

/-- What holds of a new group and is kept by a change holds of all groups after an update. -/
theorem update_forall {name : String} {change : UnionGroup → Except BuildError UnionGroup}
    {groups groups' : List UnionGroup} {P : UnionGroup → Prop}
    (h : update name change groups = .ok groups') (hnew : P ⟨name, none, []⟩)
    (hchange : ∀ group group', P group → change group = .ok group' → P group')
    (hgroups : ∀ group ∈ groups, P group) : ∀ group ∈ groups', P group := by
  induction groups generalizing groups' with
  | nil =>
    simp only [update, bind_succeeds_iff, pure_succeeds_iff] at h
    obtain ⟨group, hgroup, rfl⟩ := h
    exact List.forall_mem_singleton.mpr (hchange _ _ hnew hgroup)
  | cons group groups ih =>
    obtain ⟨hfirst, hrest⟩ := List.forall_mem_cons.mp hgroups
    rw [update] at h
    split at h
    next =>
      simp only [bind_succeeds_iff, pure_succeeds_iff] at h
      obtain ⟨changed, hchanged, rfl⟩ := h
      exact List.forall_mem_cons.mpr ⟨hchange _ _ hfirst hchanged, hrest⟩
    next =>
      simp only [bind_succeeds_iff, pure_succeeds_iff] at h
      obtain ⟨others, hothers, rfl⟩ := h
      exact List.forall_mem_cons.mpr ⟨hfirst, ih hothers hrest⟩

/-- All groups so far are of these fields. -/
def HostedBy (u : Unions) (fields : List CompiledField) : Prop :=
  ∀ group ∈ u.unions, group.HostedBy fields

variable {fields : List CompiledField} {u u' : Unions} {jsonName : String}

theorem add_hostedBy {selector : Option ItemSelector} {rule : Rule}
    (h : u.add jsonName selector rule = .ok u') (hu : u.HostedBy fields)
    (hrule : ∀ constraint tag, rule = .leaf constraint tag → constraint.isUnionMarker = true →
      Hosts fields jsonName selector) : u'.HostedBy fields := by
  have hnew (name : String) : UnionGroup.HostedBy ⟨name, none, []⟩ fields := ⟨nofun, nofun⟩
  unfold add at h
  split at h
  next union member tag =>
    simp only [bind_succeeds_iff, pure_succeeds_iff] at h
    obtain ⟨unions, hunions, rfl⟩ := h
    apply update_forall hunions (hnew union) _ hu
    intro group group' hgroup hchange
    split at hchange
    next => cases hchange
    next =>
      cases hchange
      refine ⟨?_, hgroup.discriminator⟩
      intro added hadded
      rcases List.mem_append.mp hadded with hadded | hadded
      · exact hgroup.members added hadded
      · rw [List.mem_singleton.mp hadded]
        exact hrule _ _ rfl rfl
  next =>
    simp only [bind_succeeds_iff, pure_succeeds_iff] at h
    obtain ⟨zeroOrOne, -, rfl⟩ := h
    exact hu
  next union tag =>
    simp only [bind_succeeds_iff, pure_succeeds_iff] at h
    obtain ⟨unions, hunions, rfl⟩ := h
    apply update_forall hunions (hnew union) _ hu
    intro group group' hgroup hchange
    split at hchange
    next => cases hchange
    next =>
      cases hchange
      refine ⟨hgroup.members, ?_⟩
      rintro _ ⟨⟩
      exact (hrule _ _ rfl rfl).whole
  next =>
    cases h
    exact hu

/-- One rule of a field, which makes the field a host directly or by one of its items. -/
theorem addFieldRule_hostedBy {rule : Rule} (h : u.addFieldRule jsonName rule = .ok u')
    (hu : u.HostedBy fields)
    (hleaf : ∀ constraint tag, rule = .leaf constraint tag → constraint.isUnionMarker = true →
      Hosts fields jsonName none)
    (hitem : ∀ selector constraint tag tag',
      rule = .within (.item selector) (.leaf constraint tag) tag' →
      constraint.isUnionMarker = true → Hosts fields jsonName (some selector)) :
    u'.HostedBy fields := by
  rw [addFieldRule, bind_succeeds_iff] at h
  obtain ⟨v, hv, h⟩ := h
  have hfirst : v.HostedBy fields := add_hostedBy hv hu hleaf
  split at h
  next selector inner tag =>
    refine add_hostedBy h hfirst ?_
    rintro constraint tag' rfl
    exact hitem selector constraint tag' tag rfl
  next =>
    cases h
    exact hfirst

/-- The induction is on the rules of the field; the groups so far grow with them. -/
theorem addFieldRules_hostedBy {rules : List Rule}
    (h : rules.foldlM (addFieldRule jsonName) u = .ok u') (hu : u.HostedBy fields)
    (hleaf : ∀ constraint tag, .leaf constraint tag ∈ rules → constraint.isUnionMarker = true →
      Hosts fields jsonName none)
    (hitem : ∀ selector constraint tag tag',
      .within (.item selector) (.leaf constraint tag) tag' ∈ rules →
      constraint.isUnionMarker = true → Hosts fields jsonName (some selector)) :
    u'.HostedBy fields := by
  induction rules generalizing u with
  | nil =>
    cases h
    exact hu
  | cons rule rules ih =>
    rw [List.foldlM_cons, bind_succeeds_iff] at h
    obtain ⟨v, hv, h⟩ := h
    apply ih h
    · apply addFieldRule_hostedBy hv hu
      · rintro constraint tag rfl
        exact hleaf constraint tag List.mem_cons_self
      · rintro selector constraint tag tag' rfl
        exact hitem selector constraint tag tag' List.mem_cons_self
    · intro constraint tag hrule
      exact hleaf constraint tag (List.mem_cons_of_mem _ hrule)
    · intro selector constraint tag tag' hrule
      exact hitem selector constraint tag tag' (List.mem_cons_of_mem _ hrule)

end Unions

namespace Compiler

variable {c : Compiler}

theorem fieldRules_check {field : FieldDef} {rules : List Rule}
    (h : c.fieldRules field = .ok rules) : check rules = .ok () := by
  simp only [fieldRules, Compiler.rules, bind_succeeds_iff, pure_succeeds_iff] at h
  obtain ⟨tags, -, built, -, ⟨⟩, hcheck, rfl⟩ := h
  exact hcheck

theorem not_stable_of_isUnionMarker {constraint : Constraint} {tag : String}
    (h : constraint.isUnionMarker = true) : (Rule.leaf constraint tag).stability ≠ .stable := by
  cases constraint with
  | unionMember | unionDiscriminator | zeroOrOneOf => nofun
  | _ => cases h

/-- A rule on an item is for a list. -/
theorem Accepts.isList_of_item {scope : Scope} {target : TypeRef} {around : Surroundings}
    {selector : ItemSelector} {inner : Rule} {tag : String} {plan : Plan}
    (h : c.Accepts scope target around (.within (.item selector) inner tag))
    (hplan : c.HasPlan target plan) :
    ∃ access element semantics, plan = .list access element semantics := by
  cases h with
  | item hstruct helement hselects hkeys hinner =>
    obtain ⟨resolved, hresolve, hshape⟩ := element_eq_ok helement
    obtain ⟨access, element, semantics, hlist, -⟩ := hplan.of_slice hresolve hshape
    exact ⟨access, element, semantics, hlist⟩

theorem field_hostedBy {u v : Unions} {field : FieldDef} {compiled : CompiledField}
    {fields : List CompiledField} (h : c.field u field = .ok (compiled, v))
    (hmem : compiled ∈ fields) (hu : u.HostedBy fields) : v.HostedBy fields := by
  obtain ⟨rules, plan, hrules, hplan, hunions, hcompiled⟩ := field_eq_ok h
  have hcheck := fieldRules_check hrules
  have hnative (rule part : Rule) (hrule : rule ∈ rules) (hpart : part ∈ rule.all)
      (hunstable : part.stability ≠ .stable) : compiled.native = false := by
    rw [hcompiled]
    exact eq_false_of_ne_true fun his =>
      hunstable ((check_eq_ok_iff.mp hcheck).2.2 his rule hrule part hpart)
  apply Unions.addFieldRules_hostedBy hunions hu
  · intro constraint tag hrule hmarker
    refine ⟨compiled, hmem, by rw [hcompiled], ?_, nofun⟩
    exact hnative _ _ hrule List.mem_cons_self (not_stable_of_isUnionMarker hmarker)
  · intro selector constraint tag tag' hrule hmarker
    refine ⟨compiled, hmem, by rw [hcompiled], ?_, ?_⟩
    · exact hnative _ _ hrule (List.mem_cons_of_mem _ List.mem_cons_self)
        (not_stable_of_isUnionMarker hmarker)
    · intro _
      rw [hcompiled]
      exact (fieldRules_accepts hrules hrule).isList_of_item (hasPlan_of_plan hplan)

/-- The induction is on the fields, each of which is among all fields of the struct. -/
theorem fields_hostedBy {type : String} {u v : Unions} {fields : List FieldDef}
    {compiled all : List CompiledField} (h : c.fields type u fields = .ok (compiled, v))
    (hall : compiled ⊆ all) (hu : u.HostedBy all) : v.HostedBy all := by
  induction fields generalizing u compiled with
  | nil =>
    cases h
    exact hu
  | cons field fields ih =>
    obtain ⟨first, u', others, hfirst, hothers, rfl⟩ := fields_cons_eq_ok h
    obtain ⟨hmem, hrest⟩ := List.cons_subset.mp hall
    exact ih hothers hrest (field_hostedBy hfirst hmem hu)

end Compiler

/-- In a schema the unions of a struct are formed by its fields. -/
theorem hostedBy_of_struct? {types : Universe} {options : Options} {name : String}
    {body : CompiledStruct} (h : (compile types options).schema.struct? name = some body) :
    ∀ group ∈ body.unions, group.HostedBy body.fields := by
  obtain ⟨type, fields, hstruct⟩ := structBody_of_struct? h
  obtain ⟨u, hfields, hunions, -⟩ := Compiler.structBody_eq_ok hstruct
  rw [hunions]
  exact Compiler.fields_hostedBy hfields (List.Subset.refl _) nofun

/-! ## Names of members -/

/-- What every single addition keeps is kept by all the rules of all fields. -/
theorem Compiler.fields_keep {c : Compiler} {P : Unions → Prop}
    (hadd : ∀ u u' field selector rule, P u → u.add field selector rule = .ok u' → P u')
    {type : String} {u v : Unions} {fields : List FieldDef} {compiled : List CompiledField}
    (h : c.fields type u fields = .ok (compiled, v)) (hu : P u) : P v := by
  have hrule (field : String) (u : Unions) (rule : Rule) (u' : Unions) (hu : P u)
      (h : u.addFieldRule field rule = .ok u') : P u' := by
    rw [Unions.addFieldRule, bind_succeeds_iff] at h
    obtain ⟨w, hw, h⟩ := h
    have hfirst : P w := hadd u w field none rule hu hw
    split at h
    next selector inner tag => exact hadd w u' field (some selector) inner hfirst h
    next =>
      cases h
      exact hfirst
  induction fields generalizing u compiled with
  | nil =>
    cases h
    exact hu
  | cons field fields ih =>
    obtain ⟨first, u', others, hfirst, hothers, rfl⟩ := fields_cons_eq_ok h
    obtain ⟨rules, plan, -, -, hunions, -⟩ := field_eq_ok hfirst
    have hkeeps : P u' := foldlM_keeps (fun w _ => P w)
      (fun w _ rule w' hw hstep => hrule field.jsonName w rule w' hw hstep) hu hunions
    exact ih hothers hkeeps

/-- No two members of the group have the same name. -/
def UnionGroup.HasDistinctNames (group : UnionGroup) : Prop :=
  (group.members.map UnionMember.name).Nodup

/-- A member whose name is taken is refused. -/
theorem Unions.add_hasDistinctNames {u u' : Unions} {field : String}
    {selector : Option ItemSelector} {rule : Rule}
    (hu : ∀ group ∈ u.unions, group.HasDistinctNames) (h : u.add field selector rule = .ok u') :
    ∀ group ∈ u'.unions, group.HasDistinctNames := by
  have hnew (name : String) : UnionGroup.HasDistinctNames ⟨name, none, []⟩ := List.nodup_nil
  unfold add at h
  split at h
  next union member tag =>
    simp only [bind_succeeds_iff, pure_succeeds_iff] at h
    obtain ⟨unions, hunions, rfl⟩ := h
    apply update_forall hunions (hnew union) _ hu
    intro group group' hgroup hchange
    split at hchange
    next => cases hchange
    next hfree =>
      cases hchange
      rw [UnionGroup.HasDistinctNames, List.map_append, List.map_singleton,
        ← List.concat_eq_append]
      refine List.Nodup.concat ?_ hgroup
      intro htaken
      obtain ⟨other, hother, hname⟩ := List.mem_map.mp htaken
      exact hfree (List.any_eq_true.mpr ⟨other, hother, beq_iff_eq.mpr hname⟩)
  next =>
    simp only [bind_succeeds_iff, pure_succeeds_iff] at h
    obtain ⟨zeroOrOne, -, rfl⟩ := h
    exact hu
  next union tag =>
    simp only [bind_succeeds_iff, pure_succeeds_iff] at h
    obtain ⟨unions, hunions, rfl⟩ := h
    apply update_forall hunions (hnew union) _ hu
    intro group group' hgroup hchange
    split at hchange
    next => cases hchange
    next =>
      cases hchange
      exact hgroup
  next =>
    cases h
    exact hu

/-- In a schema the members of each union have different names. -/
theorem hasDistinctNames_of_struct? {types : Universe} {options : Options} {name : String}
    {body : CompiledStruct} (h : (compile types options).schema.struct? name = some body) :
    ∀ group ∈ body.unions, group.HasDistinctNames := by
  obtain ⟨type, fields, hstruct⟩ := structBody_of_struct? h
  obtain ⟨u, hfields, hunions, -⟩ := Compiler.structBody_eq_ok hstruct
  rw [hunions]
  exact Compiler.fields_keep (P := fun u => ∀ group ∈ u.unions, group.HasDistinctNames)
    (fun _ _ _ _ _ hu hadd => Unions.add_hasDistinctNames hu hadd) hfields nofun

end TaggedSchema
