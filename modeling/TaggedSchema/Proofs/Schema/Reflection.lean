import TaggedSchema.Proofs.Schema.Lists
import TaggedSchema.Proofs.Schema.Markers
import TaggedSchema.Proofs.Schema.Shaping

/-!
# Which markers count

A constraint on how a list is identified counts for the list to which it is attached, if the way to
it is through elements, values and keys only. Of several modes of uniqueness at one list the last
one counts. A constraint below a subfield or an item says nothing of any list, and a constraint on
unions counts for the field itself or one item of it.
-/

namespace TaggedSchema

namespace Rule

/-- The places that the rule leads through, one after the other. -/
def places : Rule → List Place
  | leaf .. => []
  | within place inner _ => place :: inner.places
  | guarded _ inner _ => inner.places

/-- The constraint to which the rule leads. -/
def last : Rule → Rule
  | leaf constraint tag => leaf constraint tag
  | within _ inner _ => inner.last
  | guarded _ inner _ => inner.last

/-- Whether the way to the constraint is through elements, values and keys only. -/
def isDirect (rule : Rule) : Bool :=
  rule.places.all Place.isEach

end Rule

theorem Constraint.isSettled_of_isListMetadata {constraint : Constraint}
    (h : constraint.isListMetadata = true) : constraint.isSettled = true := by
  cases constraint <;> first | rfl | cases h

theorem Constraint.isSettled_of_isUnionMarker {constraint : Constraint}
    (h : constraint.isUnionMarker = true) : constraint.isSettled = true := by
  cases constraint <;> first | rfl | cases h

/-- The rules in an enumeration take constants out of it. -/
theorem Exclusion.eq_enumExclude_of_mem {exclusion : Exclusion} {constraint : Constraint}
    {tag : String} (h : .leaf constraint tag ∈ exclusion.rules) : constraint = .enumExclude := by
  induction exclusion with
  | always tag' =>
    rcases List.mem_singleton.mp h with ⟨⟩
    rfl
  | guarded condition inner tag' ih =>
    rcases List.mem_cons.mp h with h | h
    · cases h
    · exact ih h

theorem Constraint.eq_enumExclude_of_mem {constraint inner : Constraint} {tag : String}
    (h : .leaf inner tag ∈ constraint.rules) : inner = .enumExclude := by
  cases constraint with
  | enumeration members =>
    obtain ⟨member, -, h⟩ := List.mem_flatMap.mp h
    obtain ⟨exclusion, -, h⟩ := List.mem_flatMap.mp h
    exact Exclusion.eq_enumExclude_of_mem h
  | _ => cases h

namespace Rule

variable {rule : Rule} {constraint : Constraint} {tag : String} {types : Universe}
variable {target : TypeRef}

/-- A constraint that is settled without regard to gates is only found at the end of a rule. -/
theorem last_of_mem_all (h : .leaf constraint tag ∈ rule.all)
    (hsettled : constraint.isSettled = true) : rule.last = .leaf constraint tag := by
  induction rule with
  | leaf other otherTag =>
    rcases List.mem_cons.mp h with h | h
    · exact h.symm
    · rw [Constraint.eq_enumExclude_of_mem h] at hsettled
      cases hsettled
  | within place inner otherTag ih =>
    rcases List.mem_cons.mp h with h | h
    · cases h
    · exact ih h
  | guarded condition inner otherTag ih =>
    rcases List.mem_cons.mp h with h | h
    · cases h
    · exact ih h

theorem WellTyped.not_conditional {conditional : Bool}
    (h : rule.WellTyped types conditional target) (hlast : rule.last = .leaf constraint tag)
    (hsettled : constraint.isSettled = true) : conditional = false := by
  induction h with
  | leaf hsuits hfree =>
    cases hlast
    exact hfree hsettled
  | guarded hinner ih => cases ih hlast
  | element _ _ ih | entry _ _ ih | key _ _ ih | subfield _ _ _ ih | item _ _ _ _ ih =>
    exact ih hlast

/-- Where unions are looked for: at the field itself, or at an item of it. -/
def unionSeat? : List Place → Option (Option ItemSelector)
  | [] => some none
  | [.item selector] => some (some selector)
  | _ => none

/-- An accepted rule on unions is taken as a marker just where unions are looked for. -/
theorem marker?_of_wellTyped (field : String) {conditional : Bool}
    (h : rule.WellTyped types conditional target) (hlast : rule.last = .leaf constraint tag)
    (hsettled : constraint.isSettled = true) :
    rule.marker? field =
      (unionSeat? rule.places).map fun selector => ⟨field, selector, constraint⟩ := by
  cases h with
  | leaf =>
    cases hlast
    rfl
  | guarded hinner => cases hinner.not_conditional hlast hsettled
  | element | entry | key | subfield => rfl
  | @item _ _ element type selector inner _ hlist hstruct hkeys hinner =>
    cases hinner with
    | leaf =>
      cases hlast
      rfl
    | guarded hinner => cases hinner.not_conditional hlast hsettled
    | element | entry | key | subfield | item => rfl

end Rule

/-! ## Lists that rules lead to -/

theorem Constraint.isList_of_suits {types : Universe} {target : TypeRef} {constraint : Constraint}
    (hmetadata : constraint.isListMetadata = true) (h : constraint.Suits types target) :
    types.IsList target := by
  cases constraint with
  | listType | unique => exact h.1
  | customUnique => exact h
  | listMapKey =>
    obtain ⟨type, field, ⟨element, hlist, -⟩, -⟩ := h
    exact ⟨element, hlist⟩
  | _ => cases hmetadata

namespace ListSemantics

/-- The constraint is part of what is known of the list. -/
def Reflects (semantics : ListSemantics) : Constraint → Prop
  | .listType type => semantics.listType = type
  | .listMapKey name => name ∈ semantics.keys
  | .unique mode => semantics.unique = some mode
  | .customUnique => semantics.customUnique = true
  | _ => False

/-- Of the rules at the list, only a mode of uniqueness can be overruled: by a later one. -/
theorem SaidBy.reflects_iff {semantics : ListSemantics} {rules : List Rule}
    {constraint : Constraint} {tag : String} (h : semantics.SaidBy rules)
    (hrule : .leaf constraint tag ∈ rules) (hmetadata : constraint.isListMetadata = true) :
    semantics.Reflects constraint ↔ ∀ mode, constraint = .unique mode →
      (Rule.said Constraint.uniqueMode? rules).getLast? = some mode := by
  cases constraint with
  | listType type =>
    have hsaid : type ∈ Rule.said Constraint.listType? rules :=
      Rule.mem_said_iff.mpr ⟨_, tag, hrule, rfl⟩
    exact iff_of_true (h.listType type hsaid) nofun
  | listMapKey name =>
    have hsaid : name ∈ Rule.said Constraint.mapKey? rules :=
      Rule.mem_said_iff.mpr ⟨_, tag, hrule, rfl⟩
    exact iff_of_true ((h.keys name).mpr hsaid) nofun
  | unique mode =>
    rw [Reflects, h.unique]
    exact ⟨fun hlast _ hsame => by cases hsame; exact hlast, fun hlast => hlast mode rfl⟩
  | customUnique =>
    refine iff_of_true ?_ nofun
    rw [Reflects, h.customUnique]
    exact List.any_eq_true.mpr ⟨_, hrule, rfl⟩
  | _ => cases hmetadata

end ListSemantics

namespace Compiler

variable {c : Compiler} {r s : RuledRef} {plan part : Plan} {place : Place} {rule inner : Rule}
variable {tag : String} {rules : List Rule}

/-- The step: where a rule leads to elements, values or keys, a plan is found, and the inner rule is
one of those that stand there. -/
theorem IsPlanOf.exists_at (h : c.IsPlanOf r plan) {shape : Shape} {ref : TypeRef}
    (hshape : c.types.HasShape r.ref shape) (hat : shape.at? place = some ref)
    (hlike : place.isLike place = true) (hrule : .within place inner tag ∈ r.rules) :
    ∃ s part, c.at? r place = some s ∧ plan.at? place = some part ∧ c.IsPlanOf s part ∧
      s.ref = ref ∧ inner ∈ s.rules := by
  obtain ⟨resolved, rules, hresolve, hread, hplans⟩ := h.read
  obtain ⟨resolved', hresolve', rfl⟩ := hshape
  cases (mapError_succeeds_iff.mp hresolve).symm.trans hresolve'
  rcases optionRel_cases (hplans.places place) with
    ⟨hnone, -⟩ | ⟨ref', part, hat', hpart, hinner⟩
  · cases hat.symm.trans hnone
  · cases hat.symm.trans hat'
    exact ⟨_, part, at?_eq_some_iff.mpr ⟨resolved, rules, ref, hresolve, hread, hat, rfl⟩, hpart,
      hinner, rfl, mem_rulesWithin_iff.mpr ⟨place, tag, hlike, subset_of_read? hread hrule⟩⟩

/-- The run: a direct rule leads to a place in the plan, where its constraint is one of the rules.
The induction is on the typing of the rule, in which no condition occurs. -/
theorem IsPlanOf.exists_inside {conditional : Bool} {target : TypeRef} {constraint : Constraint}
    (htyped : rule.WellTyped c.types conditional target) (hlast : rule.last = .leaf constraint tag)
    (hsettled : constraint.isSettled = true) (hdirect : rule.isDirect = true)
    (h : c.IsPlanOf r plan) (htarget : r.ref = target) (hrule : rule ∈ r.rules) :
    ∃ s part, c.inside? r rule.places = some s ∧ plan.inside? rule.places = some part ∧
      .leaf constraint tag ∈ s.rules := by
  induction htyped generalizing r plan with
  | leaf hsuits hfree =>
    cases hlast
    exact ⟨r, plan, rfl, rfl, hrule⟩
  | guarded hinner ih => cases hinner.not_conditional hlast hsettled
  | element hshape hinner ih | entry hshape hinner ih | key hshape hinner ih =>
    subst htarget
    obtain ⟨s, next, hs, hnext, hplan, hsame, hmem⟩ := h.exists_at hshape rfl rfl hrule
    obtain ⟨t, part, ht, hpart, hleaf⟩ := ih hlast hdirect hplan hsame hmem
    exact ⟨t, part, inside?_cons_eq_some_iff.mpr ⟨s, hs, ht⟩,
      Plan.inside?_cons_eq_some_iff.mpr ⟨next, hnext, hpart⟩, hleaf⟩
  | subfield hstruct hfield hinner ih => cases hdirect
  | item hlist hstruct hkeys hinner ih => cases hdirect

/-- The constraint is one of the rules at the list to which the places lead, and the semantics there
are what these rules say. It is reflected unless it is a mode of uniqueness that a later one
overrules. -/
def CountsAt (c : Compiler) (r : RuledRef) (places : List Place) (constraint : Constraint)
    (tag : String) (part : Plan) : Prop :=
  ∃ s standing semantics, c.inside? r places = some s ∧ c.read? s = some standing ∧
    .leaf constraint tag ∈ standing ∧ part.semantics? = some semantics ∧
      semantics.SaidBy standing ∧ (semantics.Reflects constraint ↔
        ∀ mode, constraint = .unique mode →
          (Rule.said Constraint.uniqueMode? standing).getLast? = some mode)

/-- A direct constraint on how a list is identified counts for the list to which it leads. -/
theorem IsPlanOf.exists_countsAt {conditional : Bool} {constraint : Constraint}
    (htyped : rule.WellTyped c.types conditional r.ref) (hlast : rule.last = .leaf constraint tag)
    (hmetadata : constraint.isListMetadata = true) (hdirect : rule.isDirect = true)
    (h : c.IsPlanOf r plan) (haccepted : c.Accepted r) (hrule : rule ∈ r.rules) :
    ∃ part, plan.inside? rule.places = some part ∧
      c.CountsAt r rule.places constraint tag part := by
  obtain ⟨s, part, hs, hpart, hmem⟩ := h.exists_inside htyped hlast
    (Constraint.isSettled_of_isListMetadata hmetadata) hdirect rfl hrule
  obtain ⟨s', hs', hplan⟩ := h.inside hpart
  cases hs.symm.trans hs'
  have hthere := haccepted.inside hs
  have hlist : c.types.IsList s.ref := by
    obtain ⟨scope, around, haccepts⟩ := hthere _ hmem
    cases haccepts.wellTyped with
    | leaf hsuits => exact Constraint.isList_of_suits hmetadata hsuits
  obtain ⟨semantics, hsemantics⟩ :=
    Option.isSome_iff_exists.mp ((hplan.semanticsFit hthere).present.mpr hlist)
  obtain ⟨standing, hread, hmade⟩ := hplan.semantics hsemantics
  obtain ⟨hsaid, -⟩ := ListSemantics.ofRules_eq_ok hmade
  have hleaf := subset_of_read? hread hmem
  exact ⟨part, hpart, s, standing, semantics, hs, hread, hleaf, hsemantics, hsaid,
    hsaid.reflects_iff hleaf hmetadata⟩

/-! ## Rules that lists do not see -/

theorem seesLists_isDirect : SeesLists Rule.isDirect where
  other m rule hrule := by
    cases rule with
    | leaf => cases hrule
    | within | guarded => rfl
  inner place inner tag hplace := by
    rw [Rule.isDirect, Rule.places, List.all_cons, hplace, Bool.true_and]
    rfl

/-- A rule with a subfield or an item on its way can be left out. -/
theorem plan_without {ref : TypeRef} {before after : List Rule} (hrule : rule.isDirect = false) :
    c.plan ref (before ++ after) = c.plan ref (before ++ rule :: after) := by
  apply seesLists_isDirect.plan_congr
  simp [hrule]

end Compiler

end TaggedSchema
