import Mathlib.Data.List.Flatten
import TaggedSchema.Proofs.Validation.Descent
import TaggedSchema.Schema.Compile

/-!
# Updates against creations

An earlier version is only a reason to look at less. Rules on change apart, what is found on update
is found on creation as well, in the same order. The two walks are compared value by value: where
the walk on update goes on, the walk on creation goes on too, with the same rules at the same path.
-/

namespace TaggedSchema

/-- The violation is of a rule on change. -/
def Violation.isTransition (violation : Violation) : Bool :=
  violation.origin == "immutable" || violation.origin == "update"

/-- What is left of violations without those of rules on change. -/
def withoutTransitions (violations : List Violation) : List Violation :=
  violations.filter fun violation => !violation.isTransition

theorem withoutTransitions_sublist (violations : List Violation) :
    (withoutTransitions violations).Sublist violations :=
  List.filter_sublist

theorem withoutTransitions_append (first second : List Violation) :
    withoutTransitions (first ++ second) =
      withoutTransitions first ++ withoutTransitions second :=
  List.filter_append ..

theorem withoutTransitions_flatMap_sublist {α : Type} {l : List α} {f g : α → List Violation}
    (h : ∀ a ∈ l, (withoutTransitions (f a)).Sublist (g a)) :
    (withoutTransitions (l.flatMap f)).Sublist (l.flatMap g) := by
  rw [withoutTransitions, List.filter_flatMap]
  exact .flatMap_right l h

theorem Violation.isTransition_nativeIf (violation : Violation) (native : Bool) :
    (violation.nativeIf native).isTransition = violation.isTransition := by
  rw [isTransition, nativeIf_origin, isTransition]

namespace Site

/-- The same place on creation. -/
def fresh (site : Site) : Site := { site with old := none }

/-! ## Change and presence -/

/-- Only rules on change reject one. -/
theorem isTransition_of_rejection? {site : Site} {value : Value} {rules : List Constraint}
    {violation : Violation} (h : site.rejection? value rules = some violation) :
    violation.isTransition = true := by
  obtain ⟨constraint, -, change, detail, hdetail, rfl⟩ := exists_of_rejection? h
  cases constraint with
  | immutable => rfl
  | restriction kind => rfl
  | _ => cases hdetail

/-- A walk that is blocked on update by something else than a rule on change is blocked by the same
on creation. -/
theorem blocked?_cases (site : Site) (value : Value) (rules : List Constraint) :
    (∃ violation, site.blocked? value rules = some violation ∧ violation.isTransition = true) ∨
      site.fresh.blocked? value rules = site.blocked? value rules := by
  cases hrejection : site.rejection? value rules with
  | some violation =>
    refine .inl ⟨violation, ?_, isTransition_of_rejection? hrejection⟩
    rw [blocked?, hrejection, Option.some_or]
  | none =>
    right
    rw [blocked?, blocked?, hrejection, Option.none_or]
    rfl

theorem fresh_clear {site : Site} {value : Value} {rules : List Constraint}
    (hclear : site.blocked? value rules = none) : site.fresh.blocked? value rules = none := by
  rcases site.blocked?_cases value rules with ⟨violation, hblocked, -⟩ | hsame
  · rw [hclear] at hblocked
    cases hblocked
  · exact hsame.trans hclear

end Site

theorem CompiledStruct.unionViolations_sublist (body : CompiledStruct) (path : Path)
    (object : Value) (old : Option Value) :
    (body.unionViolations path object old).Sublist (body.unionViolations path object none) := by
  have hall (groups : List UnionGroup) : groups.filter
      (fun group => !(none : Option Value).any (group.isUnchanged object)) = groups :=
    List.filter_eq_self.mpr fun _ _ => rfl
  rw [unionViolations, unionViolations, hall, hall]
  exact (List.filter_sublist.flatMap _).append (List.filter_sublist.flatMap _)

namespace Context

variable (c : Context)

/-- The walk over the value finds no more on update than on creation. -/
def RatchetsAt (value : Value) : Prop :=
  ∀ site, (withoutTransitions (c.walk value site)).Sublist (c.walk value site.fresh)

variable {c}

theorem placeViolations_ratchet {value : Value}
    (ih : ∀ inner, inner.LiesIn value → c.RatchetsAt inner) (site : Site) (place : Place)
    (rule : Rule) : (withoutTransitions (c.placeViolations value site place rule)).Sublist
      (c.placeViolations value site.fresh place rule) := by
  have hplan : site.fresh.plan = site.plan := rfl
  unfold placeViolations
  rw [hplan]
  split
  next name _ type members _ =>
    split
    next field _ => exact ih _ (Value.member_liesIn members name) (site.field field [rule] true)
    next => exact .refl _
  next selector _ element semantics items _ =>
    exact ih _ (selectedItem_liesIn site.path semantics selector items) _
  next => exact .refl _

theorem structViolations_ratchet {members : List (String × Value)}
    (ih : ∀ inner, inner.LiesIn (.object members) → c.RatchetsAt inner) (site : Site)
    (body : CompiledStruct) :
    (withoutTransitions (c.structViolations (.object members) site body)).Sublist
      (c.structViolations (.object members) site.fresh body) := by
  rw [structViolations, withoutTransitions_append]
  refine List.Sublist.append ?_ ?_
  · apply withoutTransitions_flatMap_sublist
    intro field _
    exact ih _ (Value.member_liesIn members field.jsonName) _
  · exact (withoutTransitions_sublist _).trans
      ((body.unionViolations_sublist site.path (.object members) site.existing).map _)

theorem listViolations_ratchet {items : List Value}
    (ih : ∀ inner, inner.LiesIn (.array items) → c.RatchetsAt inner) (site : Site)
    (element : Plan) (semantics : ListSemantics) (rules : List Rule) :
    (withoutTransitions (c.listViolations items site element semantics rules)).Sublist
      (c.listViolations items site.fresh element semantics rules) := by
  rw [listViolations, withoutTransitions_append]
  apply List.Sublist.append (withoutTransitions_sublist _)
  apply withoutTransitions_flatMap_sublist
  rintro ⟨item, position⟩ hmem
  have hitem : item ∈ items := List.fst_mem_of_mem_zipIdx hmem
  exact ih item (.item hitem) (site.element element semantics rules position item)

/-- A key that is new on update is looked at on creation in the same way. -/
theorem keyViolations_ratchet (site : Site) (key : Plan) (rules : List Rule) (name : String) :
    (c.keyViolations site key rules name).Sublist (c.keyViolations site.fresh key rules name) := by
  rw [keyViolations, keyViolations]
  -- On creation no key has been there before.
  cases hold : (site.old.bind fun old => old.member? name).isSome with
  | true =>
    rw [Bool.true_or, if_pos rfl]
    exact List.nil_sublist _
  | false => exact .refl _

theorem mapViolations_ratchet {members : List (String × Value)}
    (ih : ∀ inner, inner.LiesIn (.object members) → c.RatchetsAt inner) (site : Site)
    (key value : Plan) (keyRules valueRules : List Rule) :
    (withoutTransitions (c.mapViolations members site key value keyRules valueRules)).Sublist
      (c.mapViolations members site.fresh key value keyRules valueRules) := by
  apply withoutTransitions_flatMap_sublist
  rintro ⟨name, entry⟩ hmem
  rw [withoutTransitions_append]
  refine List.Sublist.append ?_ (ih entry (.entry hmem) (site.entry value valueRules name))
  exact (withoutTransitions_sublist _).trans (keyViolations_ratchet site key keyRules name)

theorem insideViolations_ratchet {value : Value}
    (ih : ∀ inner, inner.LiesIn value → c.RatchetsAt inner) (site : Site) (rules : List Rule) :
    (withoutTransitions (c.insideViolations value site rules)).Sublist
      (c.insideViolations value site.fresh rules) := by
  have hplan : site.fresh.plan = site.plan := rfl
  unfold insideViolations
  rw [hplan]
  split
  next name members _ =>
    split
    next body _ => exact structViolations_ratchet ih site body
    next => exact .refl _
  next element semantics items _ => exact listViolations_ratchet ih site element semantics _
  next key entry members _ => exact mapViolations_ratchet ih site key entry _ _
  next => exact .refl _

theorem ruleViolations_ratchet {value : Value}
    (ih : ∀ inner, inner.LiesIn value → c.RatchetsAt inner) (site : Site) (rule : Rule) :
    (withoutTransitions (c.ruleViolations value site rule)).Sublist
      (c.ruleViolations value site.fresh rule) := by
  cases rule with
  | leaf constraint tag => exact withoutTransitions_sublist _
  | within place inner tag => exact placeViolations_ratchet ih site place inner
  | guarded condition inner tag => exact .refl _

theorem checkedViolations_ratchet {value : Value}
    (ih : ∀ inner, inner.LiesIn value → c.RatchetsAt inner) (site : Site) :
    (withoutTransitions (c.checkedViolations value site)).Sublist
      (c.checkedViolations value site.fresh) := by
  have hshallow : site.fresh.isShallow = site.isShallow := rfl
  have hrules : c.rulesAt site.fresh = c.rulesAt site := rfl
  rw [checkedViolations, checkedViolations, withoutTransitions_append, hshallow, hrules]
  refine List.Sublist.append ?_ ?_
  · exact withoutTransitions_flatMap_sublist fun rule _ => ruleViolations_ratchet ih site rule
  · split
    · exact .refl _
    · exact insideViolations_ratchet ih site _

/-- One step of the comparison. Where the walk on update stops without a violation, nothing that
the walk on creation finds is missed. -/
theorem Course.ratchet {value : Value} {site : Site} {found : List Violation}
    (h : c.Course value site found) (ih : ∀ inner, inner.LiesIn value → c.RatchetsAt inner) :
    (withoutTransitions found).Sublist (c.walk value site.fresh) := by
  have hfresh : site.fresh.isUnchanged value = false := rfl
  have hconstraints : c.ownConstraints site.fresh = c.ownConstraints site := rfl
  cases h with
  | unchanged hsame => exact List.nil_sublist _
  | @blocked hchanged violation hblocked =>
    -- What a rule on change reports is left out; a rule on presence reports it on creation too.
    rcases site.blocked?_cases value (c.ownConstraints site) with
      ⟨rejected, hrejected, htransition⟩ | hsame
    · cases hblocked.symm.trans hrejected
      rw [withoutTransitions, List.filter_cons_of_neg]
      · exact List.nil_sublist _
      · rw [Violation.isTransition_nativeIf, htransition]
        exact Bool.false_ne_true
    · rw [(Course.blocked hfresh (hsame.trans hblocked)).walk_eq]
      exact withoutTransitions_sublist _
  | absent hchanged hclear habsent => exact List.nil_sublist _
  | unfit hchanged hclear hpresent hunfit =>
    -- From here on both walks take the same course.
    rw [(Course.unfit hfresh (Site.fresh_clear hclear) hpresent hunfit).walk_eq]
    exact withoutTransitions_sublist _
  | checked hchanged hclear hpresent hfits =>
    rw [(Course.checked hfresh (Site.fresh_clear hclear) hpresent hfits).walk_eq]
    exact checkedViolations_ratchet ih site

theorem ratchetsAt (value : Value) : c.RatchetsAt value := by
  induction value using Value.liesIn_induct with
  | step value ih => exact fun site => (c.course value site).ratchet ih

end Context

/-- Rules on change apart, the violations on update are among those on creation, in their order. -/
theorem validate_update_sublist {schema : Schema} {name : String}
    (hknown : schema.contains name = true) (gates : GateView) (new old : Value) :
    ∃ updated created, validate schema name gates new (some old) = .ok updated ∧
      validate schema name gates new none = .ok created ∧
      (withoutTransitions updated).Sublist created := by
  obtain ⟨type, -, hvalidate⟩ := Schema.validate_of_contains hknown
  exact ⟨_, _, hvalidate gates new (some old), hvalidate gates new none,
    Context.ratchetsAt new (.root type.plan (some old))⟩

/-- Widgets keep their owner, and the keys of their labels are short. -/
def widgetTypes : Universe := Catalog.ofList
  [⟨"Widget", [], .struct
    [⟨"Owner", none, .scalar .string, ["+k8s:immutable", "+k8s:maxLength=3"]⟩,
      ⟨"Labels", none, .map (.scalar .string) (.scalar .string),
        ["+k8s:maxProperties=0", "+k8s:eachKey=+k8s:maxLength=1"]⟩]⟩]

/-- On update the owner has changed, and the key of the label has been there before. -/
theorem validate_update_sublist_widget :
    (compile widgetTypes .default).schema.contains "Widget" = true ∧
      ∃ updated created,
        validate (compile widgetTypes .default).schema "Widget" (fun _ => false)
            (.ofMembers [("owner", .string "anna"), ("labels", .ofMembers [("ab", .string "x")])])
            (some (.ofMembers [("owner", .string "bob"),
              ("labels", .ofMembers [("ab", .string "y")])])) = .ok updated ∧
          validate (compile widgetTypes .default).schema "Widget" (fun _ => false)
            (.ofMembers [("owner", .string "anna"), ("labels", .ofMembers [("ab", .string "x")])])
            none = .ok created ∧
          (withoutTransitions updated).Sublist created := by
  have hknown : (compile widgetTypes .default).schema.contains "Widget" = true := by
    decide +kernel
  exact ⟨hknown, validate_update_sublist hknown _ _ _⟩

end TaggedSchema
