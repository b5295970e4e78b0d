import TaggedSchema.Proofs.Schema.Compiled
import TaggedSchema.Proofs.Validation.Descent

/-!
# Comparing walks

Two walks over one value, by schemas and gates that may differ, from sites that meet. It is enough
to compare the rules at such sites and to see that the next sites meet again; that both walks take
the same course, and what this means for all that they find, is said here once.
-/

namespace TaggedSchema

namespace Plan

variable (plan : Plan) (named : List String)

@[simp]
theorem withNamed_named : (plan.withNamed named).access.named = named := by
  cases plan <;> rfl

@[simp]
theorem isUnset_withNamed : (plan.withNamed named).isUnset = plan.isUnset := by
  funext value
  cases plan <;> cases value <;> rfl

@[simp]
theorem fits_withNamed : (plan.withNamed named).fits = plan.fits := by
  funext value
  cases plan <;> cases value <;> rfl

@[simp]
theorem expected_withNamed : (plan.withNamed named).expected = plan.expected := by
  cases plan <;> rfl

@[simp]
theorem change?_withNamed : (plan.withNamed named).change? = plan.change? := by
  funext old new
  rw [change?, change?, isUnset_withNamed]

end Plan

namespace Constraint

variable (constraint : Constraint) (h : constraint.isShortCircuit = false)

include h

theorem rejection?_eq_none (change : Change) : constraint.rejection? change = none := by
  cases constraint with
  | immutable | restriction => cases h
  | _ => rfl

theorem presence?_eq_none (path : Path) (isUnset : Bool) :
    constraint.presence? path isUnset = none := by
  cases constraint with
  | required | forbidden => cases h
  | _ => rfl

end Constraint

namespace Site

/-- The same place with other rules, reached through other named types. -/
def relocate (site : Site) (rules : List Rule) (named : List String) : Site :=
  { site with rules, plan := site.plan.withNamed named }

section

variable {site : Site} {access : Access} (rules : List Rule) (named : List String)

theorem relocate_struct {name : String} (h : site.plan = .struct access name) :
    (site.relocate rules named).plan = .struct ⟨access.nullable, named⟩ name := by
  rw [relocate, h]
  rfl

theorem relocate_list {element : Plan} {semantics : ListSemantics}
    (h : site.plan = .list access element semantics) :
    (site.relocate rules named).plan = .list ⟨access.nullable, named⟩ element semantics := by
  rw [relocate, h]
  rfl

theorem relocate_map {key value : Plan} (h : site.plan = .map access key value) :
    (site.relocate rules named).plan = .map ⟨access.nullable, named⟩ key value := by
  rw [relocate, h]
  rfl

end

/-- Only constraints on change or presence stop a walk. -/
theorem blocked?_congr (site : Site) (value : Value) {constraints constraints' : List Constraint}
    (h : constraints'.filter Constraint.isShortCircuit =
      constraints.filter Constraint.isShortCircuit) :
    site.blocked? value constraints' = site.blocked? value constraints := by
  have hrejection (change : Change) (constraint : Constraint)
      (hother : constraint.isShortCircuit = false) :
      (constraint.rejection? change).map (fun detail =>
        Violation.forbidden site.path detail constraint.origin) = none := by
    rw [constraint.rejection?_eq_none hother, Option.map_none]
  have hpresence (constraint : Constraint) (hother : constraint.isShortCircuit = false) :
      constraint.presence? site.path (site.plan.isUnset value) = none :=
    constraint.presence?_eq_none hother _ _
  have hfilter (constraints : List Constraint) :
      site.blocked? value (constraints.filter Constraint.isShortCircuit) =
        site.blocked? value constraints := by
    simp only [blocked?, rejection?, findSome?_filter hpresence,
      fun change => findSome?_filter (hrejection change)]
  rw [← hfilter, h, hfilter]

theorem blocked?_relocate (site : Site) (rules : List Rule) (named : List String) :
    (site.relocate rules named).blocked? = site.blocked? := by
  funext value constraints
  simp only [blocked?, rejection?, relocate, Plan.isUnset_withNamed, Plan.change?_withNamed]

theorem mismatch_relocate (site : Site) (rules : List Rule) (named : List String) :
    (site.relocate rules named).mismatch = site.mismatch := by
  funext value constraints
  simp only [mismatch, relocate, Plan.expected_withNamed]

end Site

namespace Context

/-- From sites that meet on, the walks over the value find what is related. -/
def Tallies (c c' : Context) (Meets : Site → Site → Prop)
    (Finds : List Violation → List Violation → Prop) (value : Value) : Prop :=
  ∀ site site', Meets site site' → Finds (c.walk value site) (c'.walk value site')

/-- The structs have the same unions, and fields of the same names at sites that meet. -/
structure StructsMeet (Meets : Site → Site → Prop) (site site' : Site)
    (body body' : CompiledStruct) : Prop where
  unions : body'.unions = body.unions
  zeroOrOne : body'.zeroOrOne = body.zeroOrOne
  fields : List.Forall₂ (fun field field' => field'.jsonName = field.jsonName ∧
    Meets (site.field field field.rules field.isOpaque)
      (site'.field field' field'.rules field'.isOpaque)) body.fields body'.fields

/-- What is found in one part after the other is related if what is found in each part is. -/
structure Composes (Finds : List Violation → List Violation → Prop) : Prop where
  same (found : List Violation) : Finds found found
  append {found found' others others' : List Violation} (h : Finds found found')
    (hothers : Finds others others') : Finds (found ++ others) (found' ++ others')

theorem composes_eq : Composes fun found found' => found' = found where
  same _ := rfl
  append hfound hothers := congrArg₂ _ hfound hothers

/-- Where rules are compared in pairs, so is all that they find. -/
theorem Composes.flatMap {Finds : List Violation → List Violation → Prop} (h : Composes Finds)
    {α β : Type} {as : List α} {bs : List β} {f : α → List Violation} {g : β → List Violation}
    (hpairs : List.Forall₂ (fun a b => Finds (f a) (g b)) as bs) :
    Finds (as.flatMap f) (bs.flatMap g) := by
  induction hpairs with
  | nil => exact h.same []
  | cons hpair hrest ih => exact h.append hpair ih

theorem Composes.flatMap_same {Finds : List Violation → List Violation → Prop} (h : Composes Finds)
    {α : Type} {as : List α} {f g : α → List Violation} (hpairs : ∀ a ∈ as, Finds (f a) (g a)) :
    Finds (as.flatMap f) (as.flatMap g) :=
  h.flatMap (List.forall₂_same.mpr hpairs)

section

variable {c c' : Context} {Meets : Site → Site → Prop}
variable {Finds : List Violation → List Violation → Prop} {value : Value} {site site' : Site}
variable {rule rule' : Rule}

/-! ## One step of both walks -/

/-- The structs have the same unions, and in fields of the same names what is found is related. -/
structure StructsFind (c c' : Context) (Finds : List Violation → List Violation → Prop)
    (value : Value) (site site' : Site) (body body' : CompiledStruct) : Prop where
  unions : body'.unions = body.unions
  zeroOrOne : body'.zeroOrOne = body.zeroOrOne
  fields : List.Forall₂ (fun field field' => field'.jsonName = field.jsonName ∧
    Finds (c.walk (value.member field.jsonName) (site.field field field.rules field.isOpaque))
      (c'.walk (value.member field.jsonName) (site'.field field' field'.rules field'.isOpaque)))
    body.fields body'.fields

/-- Rules on a subfield are compared at the field, in which structs may differ. -/
theorem Composes.subfieldViolations (h : Composes Finds)
    (hplace : ∃ rules named, site' = site.relocate rules named) {name : String}
    (hfield : ∀ access type, site.plan = .struct access type → value.isObject = true →
      Option.Rel
        (fun field field' => Finds (c.walk (value.member name) (site.field field [rule] true))
          (c'.walk (value.member name) (site'.field field' [rule'] true)))
        ((c.schema.struct? type).bind fun body => body.field? name)
        ((c'.schema.struct? type).bind fun body => body.field? name)) :
    Finds (c.placeViolations value site (.subfield name) rule)
      (c'.placeViolations value site' (.subfield name) rule') := by
  obtain ⟨rules, named, rfl⟩ := hplace
  cases hplan : site.plan with
  | struct access type =>
    have hplan' := Site.relocate_struct rules named hplan
    cases value with
    | object members =>
      simp only [placeViolations, hplan, hplan']
      rcases optionRel_cases (hfield access type hplan rfl) with
        ⟨hget, hget'⟩ | ⟨field, field', hget, hget', hfinds⟩
      · rw [hget, hget']
        exact h.same []
      · rw [hget, hget']
        exact hfinds
    | _ =>
      simp only [placeViolations, hplan, hplan']
      exact h.same []
  | _ =>
    simp only [placeViolations, hplan, Site.relocate, Plan.withNamed, Plan.withAccess]
    exact h.same []

/-- Rules on an item are compared at the item that is selected, which is the same. -/
theorem Composes.itemViolations (h : Composes Finds)
    (hplace : ∃ rules named, site' = site.relocate rules named) {selector : ItemSelector}
    (hitem : ∀ access element semantics items, site.plan = .list access element semantics →
      value = .array items →
        Finds
          (c.walk (selectedItem site.path semantics selector items).2
            (site.item (selectedItem site.path semantics selector items).1 selector element rule))
          (c'.walk (selectedItem site.path semantics selector items).2
            (site'.item (selectedItem site.path semantics selector items).1 selector element
              rule'))) :
    Finds (c.placeViolations value site (.item selector) rule)
      (c'.placeViolations value site' (.item selector) rule') := by
  obtain ⟨rules, named, rfl⟩ := hplace
  cases hplan : site.plan with
  | list access element semantics =>
    have hplan' := Site.relocate_list rules named hplan
    cases value with
    | array items =>
      simp only [placeViolations, hplan, hplan']
      exact hitem access element semantics items hplan rfl
    | _ =>
      simp only [placeViolations, hplan, hplan']
      exact h.same []
  | _ =>
    simp only [placeViolations, hplan, Site.relocate, Plan.withNamed, Plan.withAccess]
    exact h.same []

/-- What is found inside is compared field by field, element by element, or entry by entry. -/
theorem Composes.insideViolations (h : Composes Finds)
    (hplace : ∃ rules named, site' = site.relocate rules named)
    (hstruct : ∀ access name, site.plan = .struct access name → value.isObject = true →
      Option.Rel (StructsFind c c' Finds value site site') (c.schema.struct? name)
        (c'.schema.struct? name))
    (helement : ∀ access element semantics items, site.plan = .list access element semantics →
      value = .array items → ∀ position item, items[position]? = some item →
        Finds
          (c.walk item (site.element element semantics
            (rulesWithin Place.isEachVal (c.rulesAt site)) position item))
          (c'.walk item (site'.element element semantics
            (rulesWithin Place.isEachVal (c'.rulesAt site')) position item)))
    (hentry : ∀ access key entry members, site.plan = .map access key entry →
      value = .object members → ∀ name inner, (name, inner) ∈ members →
        Finds
          (c.keyViolations site key (rulesWithin Place.isEachKey (c.rulesAt site)) name)
          (c'.keyViolations site' key (rulesWithin Place.isEachKey (c'.rulesAt site')) name) ∧
        Finds
          (c.walk inner (site.entry entry (rulesWithin Place.isEachVal (c.rulesAt site)) name))
          (c'.walk inner
            (site'.entry entry (rulesWithin Place.isEachVal (c'.rulesAt site')) name))) :
    Finds (c.insideViolations value site (c.rulesAt site))
      (c'.insideViolations value site' (c'.rulesAt site')) := by
  obtain ⟨rules, named, rfl⟩ := hplace
  cases hplan : site.plan with
  | scalar access kind =>
    simp only [Context.insideViolations, hplan, Site.relocate, Plan.withNamed, Plan.withAccess]
    exact h.same []
  | struct access name =>
    have hplan' := Site.relocate_struct rules named hplan
    cases value with
    | object members =>
      simp only [Context.insideViolations, hplan, hplan']
      rcases optionRel_cases (hstruct access name hplan rfl) with
        ⟨hget, hget'⟩ | ⟨body, body', hget, hget', hbody⟩
      · rw [hget, hget']
        exact h.same []
      · rw [hget, hget']
        apply h.append
        · apply h.flatMap
          apply hbody.fields.imp
          rintro field field' ⟨hname, hfinds⟩
          rw [hname]
          exact hfinds
        · rw [CompiledStruct.unionViolations, CompiledStruct.unionViolations, hbody.unions,
            hbody.zeroOrOne]
          exact h.same _
    | _ =>
      simp only [Context.insideViolations, hplan, hplan']
      exact h.same []
  | list access element semantics =>
    have hplan' := Site.relocate_list rules named hplan
    cases value with
    | array items =>
      simp only [Context.insideViolations, hplan, hplan']
      apply h.append (h.same _)
      apply h.flatMap_same
      rintro ⟨item, position⟩ hmem
      exact helement access element semantics items hplan rfl position item
        (List.mem_zipIdx_iff_getElem?.mp hmem)
    | _ =>
      simp only [Context.insideViolations, hplan, hplan']
      exact h.same []
  | map access key entry =>
    have hplan' := Site.relocate_map rules named hplan
    cases value with
    | object members =>
      simp only [Context.insideViolations, hplan, hplan']
      apply h.flatMap_same
      rintro ⟨name, inner⟩ hmem
      obtain ⟨hkey, hinner⟩ := hentry access key entry members hplan rfl name inner hmem
      exact h.append hkey hinner
    | _ =>
      simp only [Context.insideViolations, hplan, hplan']
      exact h.same []

/-- A key is looked at in both walks or in neither. -/
theorem Composes.keyViolations (h : Composes Finds)
    (hplace : ∃ rules named, site' = site.relocate rules named) {key : Plan} {keyRules : List Rule}
    {name : String}
    (hkey : (site.old.bind fun old => old.member? name) = none →
      (keyRules.isEmpty && key.access.named.isEmpty) = false →
        Finds (c.walk (key.keyValue name) (site.mapKey key keyRules name))
          (c'.walk (key.keyValue name) (site'.mapKey key keyRules name))) :
    Finds (c.keyViolations site key keyRules name) (c'.keyViolations site' key keyRules name) := by
  have hold : site'.old = site.old := by
    obtain ⟨rules, named, rfl⟩ := hplace
    rfl
  rw [Context.keyViolations, Context.keyViolations, hold]
  split
  next => exact h.same []
  next hlooks =>
    obtain ⟨hnew, hchecked⟩ := Bool.or_eq_false_iff.mp (eq_false_of_ne_true hlooks)
    exact hkey (Option.not_isSome_iff_eq_none.mp (Bool.eq_false_iff.mp hnew)) hchecked

theorem Composes.checkedViolations (h : Composes Finds)
    (hplace : ∃ rules named, site' = site.relocate rules named)
    (hrules : Finds ((c.rulesAt site).flatMap (c.ruleViolations value site))
      ((c'.rulesAt site').flatMap (c'.ruleViolations value site')))
    (hinside : site.isShallow = false → Finds (c.insideViolations value site (c.rulesAt site))
      (c'.insideViolations value site' (c'.rulesAt site'))) :
    Finds (c.checkedViolations value site) (c'.checkedViolations value site') := by
  have hshallow : site'.isShallow = site.isShallow := by
    obtain ⟨rules, named, rfl⟩ := hplace
    rfl
  rw [Context.checkedViolations, Context.checkedViolations, hshallow]
  apply h.append hrules
  cases hdeep : site.isShallow with
  | true => exact h.same []
  | false => exact hinside hdeep

/-- Both walks take the same course at a value if they are blocked together. -/
theorem Composes.walk (h : Composes Finds)
    (hplace : ∃ rules named, site' = site.relocate rules named)
    (hblocked : Option.Rel
      (fun violation violation' =>
        Finds [violation.nativeIf site.native] [violation'.nativeIf site.native])
      (site.blocked? value (c.ownConstraints site)) (site.blocked? value (c'.ownConstraints site')))
    (hmismatch : c.LooksAt value site → site.plan.fits value = false →
      Finds
        [(site.mismatch value ((c.rulesAt site).filterMap Rule.constraint?)).nativeIf site.native]
        [(site.mismatch value ((c'.rulesAt site').filterMap Rule.constraint?)).nativeIf
          site.native])
    (hchecked : c.LooksAt value site → site.plan.fits value = true →
      Finds (c.checkedViolations value site) (c'.checkedViolations value site')) :
    Finds (c.walk value site) (c'.walk value site') := by
  obtain ⟨rules, named, rfl⟩ := hplace
  rw [← site.blocked?_relocate rules named] at hblocked
  rw [← site.mismatch_relocate rules named] at hmismatch
  have hunset : (site.relocate rules named).plan.isUnset = site.plan.isUnset :=
    site.plan.isUnset_withNamed named
  have hfitsSame : (site.relocate rules named).plan.fits = site.plan.fits :=
    site.plan.fits_withNamed named
  generalize hfound : c.walk value site = found
  have hcourse : c.Course value site found := hfound ▸ c.course value site
  cases hcourse with
  | unchanged hunchanged =>
    have hother : c'.Course value (site.relocate rules named) [] := .unchanged hunchanged
    rw [hother.walk_eq]
    exact h.same []
  | @blocked hchanged violation hfirst =>
    have hchanged' : (site.relocate rules named).isUnchanged value = false := hchanged
    rw [← site.blocked?_relocate rules named] at hfirst
    rcases optionRel_cases hblocked with ⟨hnone, -⟩ | ⟨_, violation', hsome, hsome', hfinds⟩
    · cases hfirst.symm.trans hnone
    · cases hfirst.symm.trans hsome
      rw [(Course.blocked hchanged' hsome').walk_eq]
      exact hfinds
  | absent hchanged hclear habsent =>
    rw [← site.blocked?_relocate rules named] at hclear
    rw [← hunset] at habsent
    rcases optionRel_cases hblocked with ⟨-, hclear'⟩ | ⟨_, _, hsome, -, -⟩
    · have hother : c'.Course value (site.relocate rules named) [] :=
        .absent hchanged hclear' habsent
      rw [hother.walk_eq]
      exact h.same []
    · cases hclear.symm.trans hsome
  | unfit hchanged hclear hpresent hunfit =>
    have hlooks : c.LooksAt value site := ⟨hchanged, hclear, hpresent⟩
    have hfinds := hmismatch hlooks hunfit
    rw [← site.blocked?_relocate rules named] at hclear
    rw [← hunset] at hpresent
    rw [← hfitsSame] at hunfit
    rcases optionRel_cases hblocked with ⟨-, hclear'⟩ | ⟨_, _, hsome, -, -⟩
    · have hother : c'.Course value (site.relocate rules named) [_] :=
        .unfit hchanged hclear' hpresent hunfit
      rw [hother.walk_eq]
      rw [site.mismatch_relocate] at hfinds ⊢
      exact hfinds
    · cases hclear.symm.trans hsome
  | checked hchanged hclear hpresent hfits =>
    have hlooks : c.LooksAt value site := ⟨hchanged, hclear, hpresent⟩
    have hfinds := hchecked hlooks hfits
    rw [← site.blocked?_relocate rules named] at hclear
    rw [← hunset] at hpresent
    rw [← hfitsSame] at hfits
    rcases optionRel_cases hblocked with ⟨-, hclear'⟩ | ⟨_, _, hsome, -, -⟩
    · have hother : c'.Course value (site.relocate rules named) _ :=
        .checked hchanged hclear' hpresent hfits
      rw [hother.walk_eq]
      exact hfinds
    · cases hclear.symm.trans hsome

/-! ## Sites that meet -/

/-- At sites that meet, rules on a subfield are compared at the field. -/
theorem Composes.subfield (h : Composes Finds)
    (ih : ∀ inner, inner.LiesIn value → Tallies c c' Meets Finds inner)
    (hplace : ∃ rules named, site' = site.relocate rules named) {name : String}
    (hfield : ∀ access type, site.plan = .struct access type →
      Option.Rel
        (fun field field' => Meets (site.field field [rule] true) (site'.field field' [rule'] true))
        ((c.schema.struct? type).bind fun body => body.field? name)
        ((c'.schema.struct? type).bind fun body => body.field? name)) :
    Finds (c.placeViolations value site (.subfield name) rule)
      (c'.placeViolations value site' (.subfield name) rule') := by
  refine h.subfieldViolations hplace fun access type hplan hobject => ?_
  obtain ⟨members, rfl⟩ := isObject_iff.mp hobject
  rcases optionRel_cases (hfield access type hplan) with
    ⟨hget, hget'⟩ | ⟨field, field', hget, hget', hmeets⟩
  · rw [hget, hget']
    exact .none
  · rw [hget, hget']
    exact .some (ih _ (Value.member_liesIn members name) _ _ hmeets)

/-- At sites that meet, rules on an item are compared at the item. -/
theorem Composes.item (h : Composes Finds)
    (ih : ∀ inner, inner.LiesIn value → Tallies c c' Meets Finds inner)
    (hplace : ∃ rules named, site' = site.relocate rules named) {selector : ItemSelector}
    (hitem : ∀ access element semantics, site.plan = .list access element semantics →
      ∀ path, Meets (site.item path selector element rule)
        (site'.item path selector element rule')) :
    Finds (c.placeViolations value site (.item selector) rule)
      (c'.placeViolations value site' (.item selector) rule') := by
  refine h.itemViolations hplace fun access element semantics items hplan hitems => ?_
  subst hitems
  exact ih _ (selectedItem_liesIn _ _ _ _) _ _ (hitem access element semantics hplan _)

end

/-- What has to be known of sites that meet to compare the walks from there. -/
structure Comparison (c c' : Context) (Meets : Site → Site → Prop)
    (Finds : List Violation → List Violation → Prop) : Prop extends Composes Finds where
  place {site site' : Site} (h : Meets site site') :
    ∃ rules named, site' = site.relocate rules named
  blocked {site site' : Site} (h : Meets site site') (value : Value) :
    site.blocked? value (c'.ownConstraints site') = site.blocked? value (c.ownConstraints site)
  mismatch {site site' : Site} (h : Meets site site') (value : Value) :
    site.mismatch value ((c'.rulesAt site').filterMap Rule.constraint?) =
      site.mismatch value ((c.rulesAt site).filterMap Rule.constraint?)
  rules {value : Value} (ih : ∀ inner, inner.LiesIn value → Tallies c c' Meets Finds inner)
    {site site' : Site} (h : Meets site site') :
    Finds ((c.rulesAt site).flatMap (c.ruleViolations value site))
      ((c'.rulesAt site').flatMap (c'.ruleViolations value site'))
  struct {site site' : Site} (h : Meets site site') (hdeep : site.isShallow = false)
    {access : Access} {name : String} (hplan : site.plan = .struct access name) :
    Option.Rel (StructsMeet Meets site site') (c.schema.struct? name) (c'.schema.struct? name)
  element {site site' : Site} (h : Meets site site') (hdeep : site.isShallow = false)
    {access : Access} {element : Plan} {semantics : ListSemantics}
    (hplan : site.plan = .list access element semantics) (position : Nat) (item : Value) :
    Meets
      (site.element element semantics (rulesWithin Place.isEachVal (c.rulesAt site)) position item)
      (site'.element element semantics (rulesWithin Place.isEachVal (c'.rulesAt site')) position
        item)
  entry {site site' : Site} (h : Meets site site') (hdeep : site.isShallow = false)
    {access : Access} {key entry : Plan} (hplan : site.plan = .map access key entry)
    (name : String) :
    Meets (site.entry entry (rulesWithin Place.isEachVal (c.rulesAt site)) name)
      (site'.entry entry (rulesWithin Place.isEachVal (c'.rulesAt site')) name)
  key {site site' : Site} (h : Meets site site') (hdeep : site.isShallow = false)
    {access : Access} {key entry : Plan} (hplan : site.plan = .map access key entry)
    {name : String} (ih : Tallies c c' Meets Finds (key.keyValue name)) :
    Finds (c.keyViolations site key (rulesWithin Place.isEachKey (c.rulesAt site)) name)
      (c'.keyViolations site' key (rulesWithin Place.isEachKey (c'.rulesAt site')) name)

namespace Comparison

variable {c c' : Context} {Meets : Site → Site → Prop}
variable {Finds : List Violation → List Violation → Prop}

variable (h : Comparison c c' Meets Finds) {value : Value} {site site' : Site}

include h

theorem insideViolations (ih : ∀ inner, inner.LiesIn value → Tallies c c' Meets Finds inner)
    (hmeets : Meets site site') (hdeep : site.isShallow = false) :
    Finds (c.insideViolations value site (c.rulesAt site))
      (c'.insideViolations value site' (c'.rulesAt site')) := by
  apply h.toComposes.insideViolations (h.place hmeets)
  · intro access name hplan hobject
    obtain ⟨members, rfl⟩ := isObject_iff.mp hobject
    rcases optionRel_cases (h.struct hmeets hdeep hplan) with
      ⟨hget, hget'⟩ | ⟨body, body', hget, hget', hbody⟩
    · rw [hget, hget']
      exact .none
    · rw [hget, hget']
      refine .some ⟨hbody.unions, hbody.zeroOrOne, hbody.fields.imp ?_⟩
      rintro field field' ⟨hname, hsites⟩
      exact ⟨hname, ih _ (Value.member_liesIn members field.jsonName) _ _ hsites⟩
  · rintro access element semantics items hplan rfl position item hitem
    have hmem : item ∈ items := List.mem_of_getElem? hitem
    exact ih item (.item hmem) _ _ (h.element hmeets hdeep hplan position item)
  · rintro access key entry members hplan rfl name inner hmem
    have hkey : (key.keyValue name).LiesIn (.object members) :=
      .scalar members (keyValue_isScalar key name)
    exact ⟨h.key hmeets hdeep hplan (ih _ hkey),
      ih inner (.entry hmem) _ _ (h.entry hmeets hdeep hplan name)⟩

/-- The induction is on the value. Both walks take the same course at it. -/
theorem tallies (value : Value) : Tallies c c' Meets Finds value := by
  induction value using Value.liesIn_induct with
  | step value ih =>
    intro site site' hmeets
    apply h.toComposes.walk (h.place hmeets)
    · rw [h.blocked hmeets value]
      cases site.blocked? value (c.ownConstraints site) with
      | none => exact .none
      | some violation => exact .some (h.same _)
    · intro hlooks hunfit
      rw [h.mismatch hmeets value]
      exact h.same _
    · intro hlooks hfits
      exact h.toComposes.checkedViolations (h.place hmeets) (h.rules ih hmeets)
        (h.insideViolations ih hmeets)

end Comparison

end Context

end TaggedSchema
