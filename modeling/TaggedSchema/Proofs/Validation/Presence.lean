import TaggedSchema.Proofs.Schema.Markers
import TaggedSchema.Validation.Fit
import TaggedSchema.Validation.Unions

/-!
# Two readings of presence

Unions tell by a value alone whether it is set, rules on fields by the plan too. The two agree on
all values but objects without members, which for a union are never set, and zero values, which for
a union always are.
-/

namespace TaggedSchema

/-- A text without characters, a number that is zero, or what is false. -/
def Value.isZeroScalar : Value → Bool
  | string text => text.isEmpty
  | bool value => !value
  | number value => value.isZero
  | _ => false

namespace Plan

variable {plan : Plan} {value : Value}

def isList : Plan → Bool
  | list .. => true
  | _ => false

/-- An object without members where no map is expected. -/
def IsBareObject (plan : Plan) (value : Value) : Prop :=
  value = .object [] ∧ plan.isMap = false

/-- A zero value that is not reached through a pointer. -/
def IsPlainZero (plan : Plan) (value : Value) : Prop :=
  value.isZeroScalar = true ∧ plan.access.nullable = false

/-- A bare object is set by its plan and unset for a union. -/
theorem IsBareObject.presence (h : plan.IsBareObject value) :
    value.isPresent = false ∧ plan.isUnset value = false := by
  obtain ⟨rfl, hmap⟩ := h
  exact ⟨rfl, by simp [isUnset, hmap]⟩

/-- A plain zero is unset by its plan and set for a union. -/
theorem IsPlainZero.presence (h : plan.IsPlainZero value) :
    value.isPresent = true ∧ plan.isUnset value = true := by
  obtain ⟨hzero, hplain⟩ := h
  cases value with
  | null | array | object => cases hzero
  | bool | number | string =>
    rw [Value.isZeroScalar] at hzero
    exact ⟨rfl, by simp [isUnset, hplain, hzero]⟩

/-- The two readings agree on every other value, and on no other. -/
theorem isPresent_eq_iff (plan : Plan) (value : Value) :
    value.isPresent = !plan.isUnset value ↔
      ¬plan.IsBareObject value ∧ ¬plan.IsPlainZero value := by
  constructor
  · intro hsame
    constructor
    · intro hbare
      obtain ⟨hpresent, hset⟩ := hbare.presence
      rw [hpresent, hset] at hsame
      cases hsame
    · intro hzero
      obtain ⟨hpresent, hunset⟩ := hzero.presence
      rw [hpresent, hunset] at hsame
      cases hsame
  · rintro ⟨hbare, hzero⟩
    cases value with
    | null | array => rfl
    | object members =>
      cases members with
      | nil =>
        have hmap : plan.isMap = true := eq_true_of_ne_false fun hnot => hbare ⟨rfl, hnot⟩
        simp [Value.isPresent, isUnset, hmap]
      | cons => rfl
    | bool | number | string =>
      have hset : (!plan.access.nullable && Value.isZeroScalar _) = false :=
        eq_false_of_ne_true fun hunset => by
          rw [Bool.and_eq_true, Bool.not_eq_true'] at hunset
          exact hzero hunset.symm
      rw [isUnset]
      exact congrArg Bool.not hset.symm

/-- Values that fit the plan of a pointer, a list or a map are no plain zeros. -/
theorem not_isPlainZero_of_fits (hplan : plan.access.nullable = true ∨ plan.isList = true ∨
    plan.isMap = true) (hfits : plan.fits value = true) : ¬plan.IsPlainZero value := by
  rintro ⟨hzero, hplain⟩
  rcases hplan with hnullable | hlist | hmap
  · rw [hplain] at hnullable
    cases hnullable
  · cases plan with
    | list =>
      cases value with
      | array => cases hzero
      | _ => cases hfits
    | _ => cases hlist
  · cases plan with
    | map =>
      cases value with
      | object => cases hzero
      | _ => cases hfits
    | _ => cases hmap

end Plan

variable {types : Universe} {options : Options} {name : String} {body : CompiledStruct}

/-- A member of a union that is a field counts as set just when the rules on presence count the
field as set, unless its value is a bare object or a plain zero. If the value is of the kind that
the field expects, it is enough that it is no bare object. -/
theorem isSet_iff_of_struct? (hbody : (compile types options).schema.struct? name = some body)
    {group : UnionGroup} (hgroup : group ∈ body.unions ++ body.zeroOrOne) {member : UnionMember}
    (hmember : member ∈ group.members) (hselector : member.selector = none) :
    (∃ field ∈ body.fields, field.jsonName = member.field) ∧
      ∀ field ∈ body.fields, field.jsonName = member.field →
        field.plan.access.nullable = true ∨ field.plan.isList = true ∨ field.plan.isMap = true →
        ∀ object : Value,
          (member.isSet object = !field.plan.isUnset (object.member field.jsonName) ↔
            ¬field.plan.IsBareObject (object.member field.jsonName) ∧
              ¬field.plan.IsPlainZero (object.member field.jsonName)) ∧
          (field.plan.fits (object.member field.jsonName) = true →
            (member.isSet object = !field.plan.isUnset (object.member field.jsonName) ↔
              ¬field.plan.IsBareObject (object.member field.jsonName))) := by
  refine ⟨exists_field_of_member hbody hgroup hmember, ?_⟩
  intro field hfield hname hplan object
  have hset : member.isSet object = (object.member field.jsonName).isPresent := by
    rw [UnionMember.isSet, hselector, hname]
  rw [hset, field.plan.isPresent_eq_iff]
  exact ⟨Iff.rfl, fun hfits =>
    and_iff_left (Plan.not_isPlainZero_of_fits hplan hfits)⟩

/-- A parcel is a box or some letters. -/
def parcelTypes : Universe := Catalog.ofList
  [⟨"Box", [], .struct [⟨"Size", none, .scalar .int, []⟩]⟩,
    ⟨"Parcel", [], .struct
      [⟨"Box", none, .pointer (.named "Box"), ["+k8s:unionMember"]⟩,
        ⟨"Letters", none, .slice (.scalar .string), ["+k8s:unionMember"]⟩]⟩]

def parcelOf (box : List (String × Value)) : Value :=
  .object [("box", .object box)]

theorem isSet_iff_of_struct?_parcel :
    ∃ body, (compile parcelTypes .default).schema.struct? "Parcel" = some body ∧
      ∃ group ∈ body.unions ++ body.zeroOrOne, ∃ member ∈ group.members,
        member.selector = none ∧ ∃ field ∈ body.fields, field.jsonName = member.field ∧
          field.plan.access.nullable = true ∧
          (member.isSet (parcelOf [("size", .bool true)]) =
            !field.plan.isUnset ((parcelOf [("size", .bool true)]).member field.jsonName)) ∧
          ¬(member.isSet (parcelOf []) =
            !field.plan.isUnset ((parcelOf []).member field.jsonName)) := by
  have hcompiled : ((compile parcelTypes .default).schema.struct? "Parcel").any (fun body =>
      (body.unions ++ body.zeroOrOne).any fun group => group.members.any fun member =>
        member.selector.isNone && body.fields.any fun field =>
          field.jsonName = "box" ∧ member.field = "box" ∧ field.plan.access.nullable = true ∧
            field.plan.isMap = false) = true := by
    decide +kernel
  obtain ⟨body, hbody, hgroups⟩ := (Option.any_eq_true _ _).mp hcompiled
  obtain ⟨group, hgroup, hmembers⟩ := List.any_eq_true.mp hgroups
  obtain ⟨member, hmember, hfields⟩ := List.any_eq_true.mp hmembers
  rw [Bool.and_eq_true, Option.isNone_iff_eq_none] at hfields
  obtain ⟨hselector, hfields⟩ := hfields
  obtain ⟨field, hfield, hparts⟩ := List.any_eq_true.mp hfields
  obtain ⟨hname, hfieldName, hnullable, hmap⟩ := of_decide_eq_true hparts
  obtain ⟨-, hagree⟩ := isSet_iff_of_struct? hbody hgroup hmember hselector
  have hsame := hagree field hfield (hname.trans hfieldName.symm) (.inl hnullable)
  have hmember (box : List (String × Value)) :
      (parcelOf box).member field.jsonName = .object box := by
    rw [hname]
    rfl
  refine ⟨body, hbody, group, hgroup, member, ‹_›, hselector, field, hfield,
    hname.trans hfieldName.symm, hnullable, (hsame _).1.mpr ⟨?_, ?_⟩, fun hagrees => ?_⟩
  · rintro ⟨hempty, -⟩
    rw [hmember] at hempty
    cases hempty
  · rintro ⟨hzero, -⟩
    rw [hmember] at hzero
    cases hzero
  · exact ((hsame _).1.mp hagrees).1 ⟨hmember [], hmap⟩

end TaggedSchema
