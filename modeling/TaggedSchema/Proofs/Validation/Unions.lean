import Mathlib.Data.Set.Card
import TaggedSchema.Proofs.Schema.Markers
import TaggedSchema.Proofs.Schema.Unions
import TaggedSchema.Proofs.Validation.Findings

/-!
# The law of unions

What a union reports is decided by which of its members are set and by what its discriminator
names. That a discriminator chooses one member only rests on the names of members, which differ in
each union of a schema. A discriminator that names no member is let pass only where it is null. The
members of a zero-or-one group are not compared with each other, so that a marker which is written
twice makes its member count twice.
-/

namespace TaggedSchema

/-- Exactly one violation is found, of this kind, at this path and with this origin. -/
def IsSingle (kind : ViolationKind) (path : Path) (origin : String) (found : List Violation) :
    Prop :=
  ∃ violation, found = [violation] ∧ violation.kind = kind ∧ violation.path = path ∧
    violation.origin = origin

/-- Nothing is found under the condition, and otherwise exactly one violation. -/
def IsSingleUnless (condition : Prop) (kind : ViolationKind) (path : Path) (origin : String)
    (found : List Violation) : Prop :=
  (condition → found = []) ∧ (¬condition → IsSingle kind path origin found)

/-- Of members with different names, those that are not called like one of them are the others. -/
theorem filter_ne_name {before after : List UnionMember} {chosen : UnionMember}
    (hnames : ((before ++ chosen :: after).map UnionMember.name).Nodup) :
    (before ++ chosen :: after).filter (fun member => member.name != chosen.name) =
      before ++ after := by
  rw [List.map_append, List.map_cons, List.nodup_middle, List.nodup_cons, ← List.map_append]
    at hnames
  have hothers : ∀ member ∈ before ++ after, (member.name != chosen.name) = true := by
    intro member hmember
    exact bne_iff_ne.mpr fun hname => hnames.1 (List.mem_map.mpr ⟨member, hmember, hname⟩)
  rw [List.filter_append, List.filter_cons_of_neg (by simp), ← List.filter_append,
    List.filter_eq_self.mpr hothers]

namespace UnionGroup

variable {group : UnionGroup} {path : Path} {object : Value} {old : Option Value}

/-! ## Updates -/

/-- On update, all fields of the group have the values that they had. -/
def IsAsBefore (group : UnionGroup) (object : Value) (old : Option Value) : Prop :=
  ∃ earlier, old = some earlier ∧
    (∀ member ∈ group.members, object.member member.field == earlier.member member.field) ∧
    ∀ discriminator, group.discriminator = some discriminator →
      object.member discriminator == earlier.member discriminator

theorem isUnchanged_iff {earlier : Value} : group.isUnchanged object earlier = true ↔
    (∀ member ∈ group.members, object.member member.field == earlier.member member.field) ∧
      ∀ discriminator, group.discriminator = some discriminator →
        object.member discriminator == earlier.member discriminator := by
  rw [isUnchanged, fields, List.all_append, List.all_map, Bool.and_eq_true, List.all_eq_true,
    List.all_eq_true]
  simp only [Option.mem_toList, Function.comp_apply]

theorem any_isUnchanged_iff :
    old.any (group.isUnchanged object) = true ↔ group.IsAsBefore object old := by
  rw [Option.any_eq_true]
  exact exists_congr fun earlier => and_congr_right fun _ => isUnchanged_iff

/-- On update, what is found of a group counts only if one of its fields has changed. -/
def unlessUnchanged (group : UnionGroup) (object : Value) (old : Option Value)
    (found : List Violation) : List Violation :=
  if old.any (group.isUnchanged object) then [] else found

/-- What is found of a group obeys a law that lets it be where nothing has changed. -/
theorem unlessUnchanged_lawful {Law : List Violation → Prop} {found : List Violation}
    (hfound : Law found) :
    (group.IsAsBefore object old → group.unlessUnchanged object old found = []) ∧
      (¬group.IsAsBefore object old → Law (group.unlessUnchanged object old found)) := by
  rw [unlessUnchanged, ← any_isUnchanged_iff]
  constructor
  · intro hsame
    exact if_pos hsame
  · intro hchanged
    rwa [if_neg hchanged]

theorem flatMap_unlessUnchanged (groups : List UnionGroup)
    (find : UnionGroup → List Violation) :
    (groups.filter fun group => !old.any (group.isUnchanged object)).flatMap find =
      groups.flatMap fun group => group.unlessUnchanged object old (find group) := by
  induction groups with
  | nil => rfl
  | cons group groups ih =>
    rw [List.filter_cons, List.flatMap_cons, unlessUnchanged]
    cases old.any (group.isUnchanged object) with
    | true => exact ih
    | false => exact congrArg (find group ++ ·) ih

end UnionGroup

/-- The groups of a struct report one after the other, each by itself. -/
theorem CompiledStruct.unionViolations_eq (body : CompiledStruct) (path : Path) (object : Value)
    (old : Option Value) :
    body.unionViolations path object old =
      (body.unions.flatMap fun group =>
        group.unlessUnchanged object old (group.unionViolations path object)) ++
      body.zeroOrOne.flatMap fun group =>
        group.unlessUnchanged object old (group.zeroOrOneViolations path object) := by
  rw [unionViolations]
  exact congrArg₂ (· ++ ·) (UnionGroup.flatMap_unlessUnchanged ..)
    (UnionGroup.flatMap_unlessUnchanged ..)

namespace UnionGroup

variable {group : UnionGroup} {path : Path} {object : Value} {old : Option Value}
variable {discriminator : String} {chosen : UnionMember} {found : List Violation}
variable {markers : List Marker}

/-! ## Members that are set -/

/-- The members that are set. One that several markers make is still one member. -/
def membersSet (group : UnionGroup) (object : Value) : Set UnionMember :=
  {member | member ∈ group.members ∧ member.isSet object = true}

/-- No two markers make the same member of the zero-or-one group, if it is set. -/
def MarkedOnce (group : UnionGroup) (markers : List Marker) (object : Value) : Prop :=
  markers.Pairwise fun first second => ∀ member : UnionMember, member.isSet object = true →
    first.zeroOrOneMember? group.name = some member →
      second.zeroOrOneMember? group.name ≠ some member

theorem mem_membersSet {member : UnionMember} :
    member ∈ group.membersSet object ↔ member ∈ group.setMembers object := by
  rw [membersSet, Set.mem_ofPred_eq, setMembers, List.mem_filter]

theorem membersSet_eq_empty_iff :
    group.membersSet object = ∅ ↔ group.setMembers object = [] := by
  rw [Set.eq_empty_iff_forall_notMem, List.eq_nil_iff_forall_not_mem]
  exact forall_congr' fun member => not_congr mem_membersSet

/-- The length of the list of set members is their number, unless the list repeats one. -/
theorem ncard_membersSet (hnodup : (group.setMembers object).Nodup) :
    (group.membersSet object).ncard = (group.setMembers object).length := by
  classical
  have hlist : group.membersSet object = (group.setMembers object).toFinset := by
    ext member
    rw [Finset.mem_coe, List.mem_toFinset, mem_membersSet]
  rw [hlist, Set.ncard_coe_finset, List.toFinset_card_of_nodup hnodup]

/-- The list repeats a member just if two markers make it. -/
theorem nodup_setMembers_iff (hforms : MarkerKind.zeroOrOne.Forms markers group) :
    (group.setMembers object).Nodup ↔ group.MarkedOnce markers object := by
  rw [setMembers, hforms.members, List.Nodup, List.pairwise_filter, List.pairwise_filterMap]
  apply List.Pairwise.iff
  intro first second
  constructor
  · intro hdistinct member hset hfirst hsecond
    exact hdistinct member hfirst member hsecond hset hset rfl
  · rintro honce member hfirst _ hsecond hset - rfl
    exact honce member hset hfirst hsecond

theorem length_setMembers_le_one_iff (hforms : MarkerKind.zeroOrOne.Forms markers group) :
    (group.setMembers object).length ≤ 1 ↔
      (group.membersSet object).ncard ≤ 1 ∧ group.MarkedOnce markers object := by
  rw [← nodup_setMembers_iff hforms]
  constructor
  · intro hlength
    have hnodup : (group.setMembers object).Nodup := by
      refine List.nodup_iff_sublist.mpr fun member htwice => ?_
      exact absurd (htwice.length_le.trans hlength) (by simp)
    exact ⟨(ncard_membersSet hnodup).trans_le hlength, hnodup⟩
  · rintro ⟨hcard, hnodup⟩
    exact (ncard_membersSet hnodup).ge.trans hcard

/-! ## The law -/

/-- What a union reports whose discriminator names `chosen`, while of the other members `others`
are set: first that the chosen member is missing, then that others may not be set, at the first of
these and with the names of all of them. -/
def ReportsChoice (path : Path) (object : Value) (discriminator : String) (chosen : UnionMember)
    (others : List UnionMember) (found : List Violation) : Prop :=
  ∃ missing extra, found = missing ++ extra ∧
    (if chosen.isSet object then missing = []
      else IsSingle .required (chosen.path path) "union" missing) ∧
    match others with
    | [] => extra = []
    | first :: _ =>
      IsSingle .forbidden (first.path path) "union" extra ∧
        ∀ violation ∈ extra, violation.detail =
          "may not be specified when `" ++ discriminator ++ "` is \"" ++ chosen.name ++
            "\" (also set: " ++
            String.intercalate ", " (others.map fun other => "`" ++ other.name ++ "`") ++ ")"

/-- What a union may report of an object, by the members that are set. -/
structure ObeysUnionLaw (group : UnionGroup) (path : Path) (object : Value)
    (found : List Violation) : Prop where
  /-- No member stands in the union twice. -/
  nodup : group.members.Nodup
  /-- Without a discriminator one member has to be set. -/
  plain : group.discriminator = none →
    IsSingleUnless ((group.membersSet object).ncard = 1) .invalid path "union" found
  /-- Where the discriminator names a member, that one has to be set and no other. -/
  named : ∀ discriminator, group.discriminator = some discriminator →
    ∀ before chosen after, group.members = before ++ chosen :: after →
      object.member discriminator = .string chosen.name →
      ReportsChoice path object discriminator chosen
          ((before ++ after).filter fun member => member.isSet object) found ∧
        (found = [] ↔ group.membersSet object = {chosen})
  /-- Where the discriminator is missing or null, no member may be set. -/
  unset : ∀ discriminator, group.discriminator = some discriminator →
    (object.member discriminator).isNull = true →
      IsSingleUnless (group.membersSet object = ∅) .invalid (path.field discriminator) "union" found

/-- Of a zero-or-one group one member may be set, if only one of the markers makes it. -/
def ObeysZeroOrOneLaw (group : UnionGroup) (markers : List Marker) (path : Path) (object : Value)
    (found : List Violation) : Prop :=
  IsSingleUnless ((group.membersSet object).ncard ≤ 1 ∧ group.MarkedOnce markers object)
    .invalid path "zeroOrOneOf" found

theorem plainViolations_lawful (hnodup : (group.setMembers object).Nodup) (path : Path) :
    IsSingleUnless ((group.membersSet object).ncard = 1) .invalid path "union"
      (group.plainViolations path object) := by
  rw [ncard_membersSet hnodup, plainViolations]
  cases group.setMembers object with
  | nil => exact ⟨by simp, fun _ => ⟨_, rfl, rfl, rfl, rfl⟩⟩
  | cons first others =>
    cases others with
    | nil => exact ⟨fun _ => rfl, fun hcount => absurd rfl hcount⟩
    | cons second others => exact ⟨by simp, fun _ => ⟨_, rfl, rfl, rfl, rfl⟩⟩

theorem zeroOrOneViolations_lawful (hforms : MarkerKind.zeroOrOne.Forms markers group)
    (path : Path) (object : Value) :
    group.ObeysZeroOrOneLaw markers path object (group.zeroOrOneViolations path object) := by
  rw [ObeysZeroOrOneLaw, ← length_setMembers_le_one_iff hforms, zeroOrOneViolations]
  cases group.setMembers object with
  | nil => exact ⟨fun _ => rfl, fun hcount => absurd (Nat.zero_le 1) hcount⟩
  | cons first others =>
    cases others with
    | nil => exact ⟨fun _ => rfl, fun hcount => absurd (Nat.le_refl 1) hcount⟩
    | cons second others => exact ⟨by simp, fun _ => ⟨_, rfl, rfl, rfl, rfl⟩⟩

section

variable {before after : List UnionMember}

/-- Names being different, the discriminator chooses the member that bears its name. -/
theorem member?_name (hnames : group.HasDistinctNames)
    (hsplit : group.members = before ++ chosen :: after) :
    group.member? chosen.name = some chosen := by
  rw [HasDistinctNames, hsplit, List.map_append, List.map_cons, List.nodup_append] at hnames
  refine List.find?_eq_some_iff_append.mpr ⟨beq_self_eq_true _, before, after, hsplit, ?_⟩
  intro member hmember
  rw [Bool.not_eq_true', beq_eq_false_iff_ne]
  exact hnames.2.2 _ (List.mem_map_of_mem hmember) _ List.mem_cons_self

/-- The members that are set and not called like one of them are the others that are set. -/
theorem filter_setMembers (hnames : group.HasDistinctNames)
    (hsplit : group.members = before ++ chosen :: after) (object : Value) :
    ((group.setMembers object).filter fun member => member.name != chosen.name) =
      (before ++ after).filter fun member => member.isSet object := by
  rw [HasDistinctNames, hsplit] at hnames
  rw [setMembers, hsplit, List.filter_comm, filter_ne_name hnames]

/-- Only the chosen member is set if it is and the list of the others that are set is empty. -/
theorem membersSet_eq_singleton_iff (hnodup : group.members.Nodup)
    (hsplit : group.members = before ++ chosen :: after) :
    group.membersSet object = {chosen} ↔ chosen.isSet object = true ∧
      ((before ++ after).filter fun member => member.isSet object) = [] := by
  have hother : chosen ∉ before ++ after := by
    rw [hsplit, List.nodup_middle, List.nodup_cons] at hnodup
    exact hnodup.1
  have hmem (member : UnionMember) : member ∈ group.membersSet object ↔
      (member = chosen ∨ member ∈ before ++ after) ∧ member.isSet object = true := by
    rw [membersSet, Set.mem_ofPred_eq, hsplit, List.perm_middle.mem_iff, List.mem_cons]
  rw [Set.eq_singleton_iff_unique_mem, List.filter_eq_nil_iff, hmem]
  constructor
  · rintro ⟨⟨-, hset⟩, hunique⟩
    refine ⟨hset, fun member hmember hsetToo => ?_⟩
    obtain rfl := hunique member ((hmem member).mpr ⟨.inr hmember, hsetToo⟩)
    exact hother hmember
  · rintro ⟨hset, hothers⟩
    refine ⟨⟨.inl rfl, hset⟩, fun member hmember => ?_⟩
    obtain ⟨hchosen | hmember, hsetToo⟩ := (hmem member).mp hmember
    · exact hchosen
    · exact absurd hsetToo (hothers member hmember)

theorem chosenViolations_lawful (hnames : group.HasDistinctNames)
    (hsplit : group.members = before ++ chosen :: after) (path : Path) (object : Value)
    (discriminator : String) :
    ReportsChoice path object discriminator chosen
      ((before ++ after).filter fun member => member.isSet object)
      (group.chosenViolations path object discriminator chosen) := by
  simp only [chosenViolations, filter_setMembers hnames hsplit]
  refine ⟨_, _, rfl, ?_, ?_⟩
  · split
    next => rfl
    next => exact ⟨_, rfl, rfl, rfl, rfl⟩
  · cases (before ++ after).filter fun member => member.isSet object with
    | nil => rfl
    | cons first others =>
      refine ⟨⟨_, rfl, rfl, rfl, rfl⟩, ?_⟩
      intro violation hviolation
      rw [List.mem_singleton.mp hviolation]
      have hbegin : "may not be specified when `" = "may not be specified " ++ "when `" := rfl
      have hend : "\" (also set: " = "\"" ++ " (also set: " := rfl
      simp only [Violation.forbidden, memberNames, toString, hbegin, hend, String.append_assoc]

end

/-- Nothing is reported if the chosen member is set and no other. -/
theorem ReportsChoice.eq_nil_iff {others : List UnionMember}
    (h : ReportsChoice path object discriminator chosen others found) :
    found = [] ↔ chosen.isSet object = true ∧ others = [] := by
  obtain ⟨missing, extra, rfl, hmissing, hextra⟩ := h
  rw [List.append_eq_nil_iff]
  apply and_congr
  · split at hmissing
    next hset => exact iff_of_true hmissing hset
    next hunset =>
      obtain ⟨violation, rfl, -⟩ := hmissing
      exact iff_of_false (List.cons_ne_nil _ _) hunset
  · cases others with
    | nil => exact iff_of_true hextra rfl
    | cons first others =>
      obtain ⟨⟨violation, rfl, -⟩, -⟩ := hextra
      exact iff_of_false (List.cons_ne_nil _ _) (List.cons_ne_nil _ _)

theorem bind_member?_eq_none
    (hnone : ∀ member ∈ group.members, object.member discriminator ≠ .string member.name) :
    (object.member discriminator).text?.bind group.member? = none := by
  cases hvalue : object.member discriminator with
  | string text =>
    rw [hvalue] at hnone
    refine List.find?_eq_none.mpr fun member hmember hname => ?_
    exact hnone member hmember (congrArg _ (beq_iff_eq.mp hname).symm)
  | _ => rfl

/-- A discriminator that names no member is let pass only if it is null and no member is set. -/
theorem unionViolations_of_none (hdiscriminator : group.discriminator = some discriminator)
    (hnone : ∀ member ∈ group.members, object.member discriminator ≠ .string member.name)
    (path : Path) : group.unionViolations path object =
      if group.setMembers object = [] ∧ (object.member discriminator).isNull = true then []
      else [.invalid (path.field discriminator) (object.member discriminator)
        ("must be one of: " ++ memberNames group.members) "union"] := by
  simp only [unionViolations, hdiscriminator, discriminatedViolations, bind_member?_eq_none hnone,
    Bool.and_eq_true, List.isEmpty_iff]
  rfl

theorem unionViolations_lawful (hnames : group.HasDistinctNames) (path : Path) (object : Value) :
    group.ObeysUnionLaw path object (group.unionViolations path object) := by
  have hnodup : group.members.Nodup := List.Nodup.of_map _ hnames
  refine ⟨hnodup, ?plain, ?named, ?unset⟩
  case plain =>
    intro hplain
    rw [unionViolations, hplain]
    exact plainViolations_lawful (hnodup.filter _) path
  case named =>
    intro discriminator hdiscriminator before chosen after hsplit hvalue
    have hchosen : (object.member discriminator).text?.bind group.member? = some chosen := by
      rw [hvalue]
      exact member?_name hnames hsplit
    have hfound : group.unionViolations path object =
        group.chosenViolations path object discriminator chosen := by
      simp only [unionViolations, hdiscriminator, discriminatedViolations, hchosen]
    rw [hfound, membersSet_eq_singleton_iff hnodup hsplit]
    have hlaw := chosenViolations_lawful hnames hsplit path object discriminator
    exact ⟨hlaw, hlaw.eq_nil_iff⟩
  case unset =>
    intro discriminator hdiscriminator hnull
    have hnone (member : UnionMember) : object.member discriminator ≠ .string member.name :=
      fun hname => by
        rw [hname] at hnull
        cases hnull
    rw [unionViolations_of_none hdiscriminator fun member _ => hnone member,
      membersSet_eq_empty_iff]
    simp only [hnull, and_true]
    constructor
    · intro hunset
      exact if_pos hunset
    · intro hset
      rw [if_neg hset]
      exact ⟨_, rfl, rfl, rfl, rfl⟩

end UnionGroup

/-- The groups of a struct report one after the other, each by its law. On update, one of which all
fields are as they were reports nothing. -/
def CompiledStruct.ObeysUnionLaws (body : CompiledStruct) (path : Path) (object : Value)
    (old : Option Value) (found : List Violation) : Prop :=
  ∃ union zeroOrOne : UnionGroup → List Violation,
    found = body.unions.flatMap union ++ body.zeroOrOne.flatMap zeroOrOne ∧
    (∀ group ∈ body.unions, (group.IsAsBefore object old → union group = []) ∧
      (¬group.IsAsBefore object old → group.ObeysUnionLaw path object (union group))) ∧
    ∀ group ∈ body.zeroOrOne, (group.IsAsBefore object old → zeroOrOne group = []) ∧
      (¬group.IsAsBefore object old →
        group.ObeysZeroOrOneLaw body.markers path object (zeroOrOne group))

variable {types : Universe} {options : Options} {name : String} {body : CompiledStruct}

/-- The unions and zero-or-one groups of a struct in a schema report by their laws. A union has one
member of each name; of a zero-or-one group a member may be made by several markers, and it is
reported then even if no other is set. -/
theorem obeysUnionLaws_of_struct?
    (hbody : (compile types options).schema.struct? name = some body) (path : Path)
    (object : Value) (old : Option Value) :
    body.ObeysUnionLaws path object old (body.unionViolations path object old) := by
  refine ⟨_, _, body.unionViolations_eq path object old, ?unions, ?zeroOrOne⟩
  case unions =>
    intro group hgroup
    have hnames := hasDistinctNames_of_struct? hbody group hgroup
    exact UnionGroup.unlessUnchanged_lawful (UnionGroup.unionViolations_lawful hnames path object)
  case zeroOrOne =>
    intro group hgroup
    have hforms := (formsAll_of_struct? hbody).2.forms group hgroup
    exact UnionGroup.unlessUnchanged_lawful
      (UnionGroup.zeroOrOneViolations_lawful hforms path object)

/-- A shipment is a letter or one of two parcels, and has at most one stamp. -/
def shipmentTypes : Universe := Catalog.ofList
  [⟨"Parcel", [], .struct [⟨"Name", none, .scalar .string, []⟩]⟩,
    ⟨"Shipment", [], .struct
      [⟨"Kind", none, .scalar .string, ["+k8s:unionDiscriminator"]⟩,
        ⟨"Letter", none, .pointer (.scalar .string), ["+k8s:unionMember(memberName: letter)"]⟩,
        ⟨"Parcels", none, .slice (.named "Parcel"),
          ["+k8s:listType=map", "+k8s:listMapKey=name", "+k8s:item(name: box)=+k8s:unionMember",
            "+k8s:item(name: tube)=+k8s:unionMember"]⟩,
        ⟨"Blue", none, .pointer (.scalar .string), ["+k8s:zeroOrOneOfMember"]⟩,
        ⟨"Red", none, .pointer (.scalar .string), ["+k8s:zeroOrOneOfMember"]⟩]⟩]

def shipmentOf (kind : Value) (parcels : List String) (red : Value) : Value :=
  .ofMembers [("kind", kind), ("blue", .string "10"), ("red", red),
    ("parcels", .array (parcels.map fun name => .ofMembers [("name", .string name)]))]

/-- A shipment that has been a box, with one stamp. -/
def boxShipment : Value := shipmentOf (.string "box") ["box"] .null

/-- A shipment that is said to be a letter, with two parcels instead and two stamps. -/
def mixedShipment : Value := shipmentOf (.string "letter") ["box", "tube"] (.string "5")

/-- That the blue stamp of a label is one of the stamps is said twice. -/
def labelTypes : Universe := Catalog.ofList
  [⟨"Label", [], .struct
    [⟨"Blue", none, .pointer (.scalar .string),
        ["+k8s:zeroOrOneOfMember", "+k8s:zeroOrOneOfMember"]⟩,
      ⟨"Red", none, .pointer (.scalar .string), ["+k8s:zeroOrOneOfMember"]⟩]⟩]

/-- A label with one stamp. -/
def blueLabel : Value := .ofMembers [("blue", .string "10")]

/-- What a violation says, and where. -/
def Violation.report (violation : Violation) : ViolationKind × Path × String :=
  (violation.kind, violation.path, violation.detail)

/-- The shipment has what it should not have, and nothing of what it should. The label has a single
stamp, which is reported as two. -/
theorem obeysUnionLaws_of_struct?_shipment :
    (∃ body, (compile shipmentTypes .default).schema.struct? "Shipment" = some body ∧
      (body.unionViolations .root mixedShipment (some boxShipment)).map Violation.report =
        [(.required, Path.root.field "letter", "must be specified when `kind` is \"letter\""),
          (.forbidden, (Path.root.field "parcels").key "name=box",
            "may not be specified when `kind` is \"letter\" (also set: `box`, `tube`)"),
          (.invalid, .root, "must specify at most one of: `Blue`, `Red`")] ∧
      body.ObeysUnionLaws .root mixedShipment (some boxShipment)
        (body.unionViolations .root mixedShipment (some boxShipment))) ∧
    ∃ body, (compile labelTypes .default).schema.struct? "Label" = some body ∧
      (∀ group ∈ body.zeroOrOne, group.membersSet blueLabel ⊆ {⟨"Blue", "blue", none⟩}) ∧
      (body.unionViolations .root blueLabel none).map Violation.report =
        [(.invalid, .root, "must specify at most one of: `Blue`, `Blue`, `Red`")] ∧
      body.ObeysUnionLaws .root blueLabel none (body.unionViolations .root blueLabel none) := by
  constructor
  · have hreports : ((compile shipmentTypes .default).schema.struct? "Shipment").map (fun body =>
        (body.unionViolations .root mixedShipment (some boxShipment)).map Violation.report) =
        some [(.required, Path.root.field "letter", "must be specified when `kind` is \"letter\""),
          (.forbidden, (Path.root.field "parcels").key "name=box",
            "may not be specified when `kind` is \"letter\" (also set: `box`, `tube`)"),
          (.invalid, .root, "must specify at most one of: `Blue`, `Red`")] := by
      decide +kernel
    obtain ⟨body, hbody, hfound⟩ := Option.map_eq_some_iff.mp hreports
    exact ⟨body, hbody, hfound, obeysUnionLaws_of_struct? hbody _ _ _⟩
  · have hlabel : ((compile labelTypes .default).schema.struct? "Label").any (fun body =>
        body.zeroOrOne.all (fun group => group.members.all fun member =>
          !member.isSet blueLabel ||
            member.name == "Blue" && member.field == "blue" && member.selector.isNone) &&
        (body.unionViolations .root blueLabel none).map Violation.report =
          [(.invalid, .root, "must specify at most one of: `Blue`, `Blue`, `Red`")]) = true := by
      decide +kernel
    obtain ⟨body, hbody, hparts⟩ := (Option.any_eq_true _ _).mp hlabel
    obtain ⟨hblue, hfound⟩ := (Bool.and_eq_true _ _).mp hparts
    refine ⟨body, hbody, ?_, of_decide_eq_true hfound, obeysUnionLaws_of_struct? hbody _ _ _⟩
    rintro group hgroup ⟨name, field, selector⟩ ⟨hmember, hset⟩
    have hparts := List.all_eq_true.mp (List.all_eq_true.mp hblue group hgroup) _ hmember
    rw [hset] at hparts
    simpa [and_assoc] using hparts

/-! ## Discriminators that choose nothing -/

/-- In a whole object that is created the unions of its struct come last. -/
theorem validate_create_unions {schema : Schema} (hbody : schema.struct? name = some body)
    (gates : GateView) {object : Value} (hobject : object.isObject = true) :
    ∃ others, validate schema name gates object none =
      .ok (others ++ body.unionViolations .root object none) := by
  obtain ⟨members, rfl⟩ := Context.isObject_iff.mp hobject
  have hcourse : Context.Course ⟨schema, gates⟩ (.object members)
      (.root (.struct ⟨false, [name]⟩ name) none) _ :=
    .checked rfl (Site.blocked?_nil _ _) rfl rfl
  have hunmarked : (fun violation : Violation => violation.nativeIf false) = id := rfl
  rw [Schema.validate_of_struct? hbody, hcourse.walk_eq]
  simp only [Context.checkedViolations, Site.root, Bool.false_eq_true, if_false,
    Context.insideViolations, hbody, Context.structViolations, hunmarked, List.map_id,
    ← List.append_assoc]
  exact ⟨_, rfl⟩

/-- A discriminator that names no member of its union is let pass only if it is missing or null and
no member is set. An empty or unknown name is reported even where nothing is set, not only by the
union but in the validation of whole objects. -/
theorem unionViolations_of_names_none
    (hbody : (compile types options).schema.struct? name = some body) {group : UnionGroup}
    (hgroup : group ∈ body.unions) {discriminator : String}
    (hdiscriminator : group.discriminator = some discriminator) {object : Value}
    (hnone : ∀ member ∈ group.members, object.member discriminator ≠ .string member.name) :
    (∀ path, group.unionViolations path object =
      if group.setMembers object = [] ∧ (object.member discriminator).isNull = true then []
      else [.invalid (path.field discriminator) (object.member discriminator)
        ("must be one of: " ++ memberNames group.members) "union"]) ∧
    (object.isObject = true →
      ¬(group.setMembers object = [] ∧ (object.member discriminator).isNull = true) →
      ∀ gates, ∃ violations,
        validate (compile types options).schema name gates object none = .ok violations ∧
        .invalid (Path.root.field discriminator) (object.member discriminator)
          ("must be one of: " ++ memberNames group.members) "union" ∈ violations) := by
  have hfound := UnionGroup.unionViolations_of_none hdiscriminator hnone
  refine ⟨hfound, fun hobject hreported gates => ?_⟩
  obtain ⟨others, hvalidate⟩ := validate_create_unions hbody gates hobject
  refine ⟨_, hvalidate, List.mem_append_right _ ?_⟩
  rw [body.unionViolations_eq]
  refine List.mem_append_left _ (List.mem_flatMap.mpr ⟨group, hgroup, ?_⟩)
  rw [UnionGroup.unlessUnchanged, Option.any_none, if_neg Bool.false_ne_true, hfound,
    if_neg hreported]
  exact List.mem_singleton_self _

/-- Nothing is sent, and the kind is the empty text, which for the rules on presence is unset. -/
theorem unionViolations_of_names_none_shipment :
    ∃ body, (compile shipmentTypes .default).schema.struct? "Shipment" = some body ∧
      ∃ group ∈ body.unions, group.discriminator = some "kind" ∧
        (∀ member ∈ group.members,
          (shipmentOf (.string "") [] .null).member "kind" ≠ .string member.name) ∧
        group.setMembers (shipmentOf (.string "") [] .null) = [] ∧
        ∃ violations, validate (compile shipmentTypes .default).schema "Shipment"
            (fun _ => false) (shipmentOf (.string "") [] .null) none = .ok violations ∧
          .invalid (Path.root.field "kind") (.string "")
            ("must be one of: " ++ memberNames group.members) "union" ∈ violations := by
  have hcompiled : ((compile shipmentTypes .default).schema.struct? "Shipment").any (fun body =>
      body.unions.any fun group => group.discriminator = some "kind" ∧
        (∀ member ∈ group.members, member.name ≠ "") ∧
        group.setMembers (shipmentOf (.string "") [] .null) = []) = true := by
    decide +kernel
  obtain ⟨body, hbody, hgroups⟩ := (Option.any_eq_true _ _).mp hcompiled
  obtain ⟨group, hgroup, hparts⟩ := List.any_eq_true.mp hgroups
  obtain ⟨hdiscriminator, hnames, hunset⟩ := of_decide_eq_true hparts
  have hnone : ∀ member ∈ group.members,
      (shipmentOf (.string "") [] .null).member "kind" ≠ .string member.name :=
    fun member hmember hname => hnames member hmember (Value.string.inj hname).symm
  have hreported : ¬(group.setMembers (shipmentOf (.string "") [] .null) = [] ∧
      ((shipmentOf (.string "") [] .null).member "kind").isNull = true) :=
    fun h => Bool.false_ne_true h.2
  exact ⟨body, hbody, group, hgroup, hdiscriminator, hnone, hunset,
    (unionViolations_of_names_none hbody hgroup hdiscriminator hnone).2 rfl hreported _⟩

end TaggedSchema
