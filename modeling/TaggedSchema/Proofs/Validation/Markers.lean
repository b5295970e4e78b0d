import TaggedSchema.Proofs.Schema.Reflection
import TaggedSchema.Proofs.Validation.Chains

/-!
# Markers that take effect

What becomes of the rules of a field that say how unions are formed and how lists are identified.
-/

namespace TaggedSchema

/-- From the spot, the places lead to the last one. -/
inductive Schema.StepsAlong (schema : Schema) : Spot → List Place → Spot → Prop where
  | here (spot : Spot) : StepsAlong schema spot [] spot
  | step {spot next last : Spot} {place : Place} {places : List Place}
      (hstep : schema.StepsTo spot place next) (hrest : StepsAlong schema next places last) :
      StepsAlong schema spot (place :: places) last

variable {schema : Schema} {spot next last : Spot}

theorem Schema.StepsTo.at? {place : Place} (h : schema.StepsTo spot place next)
    (heach : place.isEach = true) : spot.plan.at? place = some next.plan := by
  cases h with
  | subfield | item => cases heach
  | element hplan | entry hplan | key hplan =>
    rw [hplan]
    rfl

/-- Elements, values and keys are looked at by the plans that the plan has for them. -/
theorem Schema.StepsAlong.inside? {places : List Place} (h : schema.StepsAlong spot places last)
    (heach : places.all Place.isEach = true) : spot.plan.inside? places = some last.plan := by
  induction h with
  | here spot => rfl
  | step hstep hrest ih =>
    rw [List.all_cons, Bool.and_eq_true] at heach
    exact Plan.inside?_cons_eq_some_iff.mpr ⟨_, hstep.at? heach.1, ih heach.2⟩

/-- What becomes of the rules of a field on unions and lists. A rule on unions is a marker of the
field or of one item of it, or none. A direct rule on a list counts for the list to which it leads,
which is checked as the plan there says. One with a subfield or an item on its way could be left
out. -/
structure CompiledField.MarkersCount (field : CompiledField) (c : Compiler) (definition : FieldDef)
    (schema : Schema) : Prop where
  unions : ∀ rule ∈ field.rules, ∀ constraint tag, .leaf constraint tag ∈ rule.all →
    constraint.isUnionMarker = true → rule.marker? field.jsonName =
      (Rule.unionSeat? rule.places).map fun selector => ⟨field.jsonName, selector, constraint⟩
  lists : ∀ rule ∈ field.rules, ∀ constraint tag, .leaf constraint tag ∈ rule.all →
    constraint.isListMetadata = true → rule.isDirect = true →
      ∃ part, field.plan.inside? rule.places = some part ∧
        c.CountsAt ⟨definition.type, field.rules⟩ rule.places constraint tag part ∧
        ∀ object last, schema.StepsAlong (field.spot object) rule.places last → last.plan = part
  others : ∀ before rule after, field.rules = before ++ rule :: after → rule.isDirect = false →
    c.plan definition.type (before ++ after) = .ok field.plan

theorem CompiledField.markersCount {c : Compiler} {definition : FieldDef} {field : CompiledField}
    (h : c.CompilesTo definition field) (schema : Schema) :
    field.MarkersCount c definition schema := by
  have haccepts {rule : Rule} (hrule : rule ∈ field.rules) :=
    Compiler.fieldRules_accepts h.rules hrule
  constructor
  case unions =>
    intro rule hrule constraint tag hleaf hmarker
    have hsettled := Constraint.isSettled_of_isUnionMarker hmarker
    exact Rule.marker?_of_wellTyped _ (haccepts hrule).wellTyped
      (Rule.last_of_mem_all hleaf hsettled) hsettled
  case lists =>
    intro rule hrule constraint tag hleaf hmetadata hdirect
    have hplan : c.IsPlanOf ⟨definition.type, field.rules⟩ field.plan := ⟨_, h.plan⟩
    have haccepted : c.Accepted ⟨definition.type, field.rules⟩ :=
      fun rule hrule => ⟨_, _, haccepts hrule⟩
    have hlast := Rule.last_of_mem_all hleaf (Constraint.isSettled_of_isListMetadata hmetadata)
    obtain ⟨part, hpart, hcounts⟩ := hplan.exists_countsAt (haccepts hrule).wellTyped hlast
      hmetadata hdirect haccepted hrule
    refine ⟨part, hpart, hcounts, fun object last hsteps => ?_⟩
    exact Option.some.inj ((hsteps.inside? hdirect).symm.trans hpart)
  case others =>
    intro before rule after hrules hrule
    rw [Compiler.plan_without hrule, ← hrules]
    exact h.plan

/-- In every struct of a schema, the unions are formed by the markers of its fields, and the rules
of each field on unions and lists count as far as they lead to places where they are looked for. -/
theorem markersCount_of_struct? {types : Universe} {options : Options} {name : String}
    {body : CompiledStruct} (h : (compile types options).schema.struct? name = some body) :
    MarkerKind.union.FormsAll body.markers body.unions ∧
      MarkerKind.zeroOrOne.FormsAll body.markers body.zeroOrOne ∧
      ∀ field ∈ body.fields, ∃ definition, Compiler.CompilesTo ⟨types, options⟩ definition field ∧
        field.MarkersCount ⟨types, options⟩ definition (compile types options).schema := by
  obtain ⟨hunions, hzeroOrOne⟩ := formsAll_of_struct? h
  refine ⟨hunions, hzeroOrOne, fun field hfield => ?_⟩
  obtain ⟨definition, hcompiles⟩ := compilesTo_of_struct? h hfield
  exact ⟨definition, hcompiles, field.markersCount hcompiles _⟩

/-- Contacts have an email or not. Their phones come in lists of distinct ones, and the marker on
each phone is not looked for. -/
def contactTypes : Universe := Catalog.ofList
  [⟨"Contact", [], .struct
    [⟨"Kind", none, .scalar .string, ["+k8s:unionDiscriminator"]⟩,
      ⟨"Email", none, .pointer (.scalar .string), ["+k8s:unionMember"]⟩,
      ⟨"Phones", none, .slice (.slice (.scalar .string)),
        ["+k8s:eachVal=+k8s:listType=set", "+k8s:eachVal=+k8s:eachVal=+k8s:unionMember"]⟩]⟩]

theorem markersCount_of_struct?_contact :
    ∃ body, (compile contactTypes .default).schema.struct? "Contact" = some body ∧
      body.unions.map (fun group => (group.discriminator, group.members.map UnionMember.name)) =
        [(some "kind", ["Email"])] ∧
      body.fields.map (fun field => field.plan.lists) =
        [[], [], [.atomic, ⟨.set, [], none, false⟩]] ∧
      MarkerKind.union.FormsAll body.markers body.unions ∧
      MarkerKind.zeroOrOne.FormsAll body.markers body.zeroOrOne ∧
      ∀ field ∈ body.fields, ∃ definition,
        Compiler.CompilesTo ⟨contactTypes, .default⟩ definition field ∧
          field.MarkersCount ⟨contactTypes, .default⟩ definition
            (compile contactTypes .default).schema := by
  have hcompiled : ((compile contactTypes .default).schema.struct? "Contact").any (fun body =>
      body.unions.map (fun group => (group.discriminator, group.members.map UnionMember.name)) =
          [(some "kind", ["Email"])] ∧
        body.fields.map (fun field => field.plan.lists) =
          [[], [], [.atomic, ⟨.set, [], none, false⟩]]) = true := by
    decide +kernel
  obtain ⟨body, hbody, hparts⟩ := (Option.any_eq_true _ _).mp hcompiled
  obtain ⟨hunions, hlists⟩ := of_decide_eq_true hparts
  exact ⟨body, hbody, hunions, hlists, markersCount_of_struct? hbody⟩

end TaggedSchema
