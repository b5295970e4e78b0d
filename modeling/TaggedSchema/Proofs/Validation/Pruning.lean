import TaggedSchema.Proofs.Schema.Pruning
import TaggedSchema.Proofs.Validation.Comparison
import TaggedSchema.Proofs.Validation.CutOff
import TaggedSchema.Proofs.Validation.Typing

/-!
# Validating without conditions that fail

A tag with a condition in it that does not hold may be left out: nothing else is found, and what is
found no longer are mismatches. These come from rules on subfields and on keys, which have a value
looked at even where the rule inside them does not apply. Where there are no such rules, exactly the
same is found.
-/

namespace TaggedSchema

variable {gates : GateView}

/-! ## Constraints that are left -/

theorem Constraint.breach?_pruned (constraint : Constraint) (path : Path) (value : Value) :
    (constraint.pruned gates).breach? gates path value = constraint.breach? gates path value := by
  cases constraint with
  | enumeration members =>
    simp only [pruned, breach?, allowedValues_pruned]
    rfl
  | _ => rfl

theorem Site.blocked?_pruned (site : Site) (value : Value) (constraints : List Constraint) :
    site.blocked? value (constraints.map (Constraint.pruned gates)) =
      site.blocked? value constraints := by
  have hrejection (change : Change) (constraint : Constraint) :
      ((constraint.pruned gates).rejection? change).map (fun detail =>
          Violation.forbidden site.path detail (constraint.pruned gates).origin) =
        (constraint.rejection? change).map fun detail =>
          .forbidden site.path detail constraint.origin :=
    Constraint.pruned_congr (f := fun constraint => (constraint.rejection? change).map fun detail =>
      Violation.forbidden site.path detail constraint.origin) (fun _ _ => rfl) constraint
  have hpresence (constraint : Constraint) :
      (constraint.pruned gates).presence? site.path (site.plan.isUnset value) =
        constraint.presence? site.path (site.plan.isUnset value) :=
    Constraint.pruned_congr (f := fun constraint =>
      constraint.presence? site.path (site.plan.isUnset value)) (fun _ _ => rfl) constraint
  simp only [blocked?, rejection?, List.findSome?_map, Function.comp_def, hrejection, hpresence]

theorem Site.mismatch_pruned (site : Site) (value : Value) (constraints : List Constraint) :
    site.mismatch value (constraints.map (Constraint.pruned gates)) =
      site.mismatch value constraints := by
  have hchecks (constraint : Constraint) :
      (constraint.pruned gates).checksValue = constraint.checksValue :=
    Constraint.pruned_congr (fun _ _ => rfl) constraint
  have horigin (constraint : Constraint) : (constraint.pruned gates).origin = constraint.origin :=
    Constraint.pruned_congr (fun _ _ => rfl) constraint
  simp only [mismatch, List.find?_map, Function.comp_def, hchecks, Option.map_map, horigin]

/-! ## What is found less -/

/-- Mismatches may be found no longer, but none if the sides are to be the same. -/
structure FindsLess (exact : Prop) (found found' : List Violation) : Prop where
  sublist : found'.Sublist found
  others : withoutMismatches found' = withoutMismatches found
  same : exact → found' = found

theorem composes_findsLess (exact : Prop) : Context.Composes (FindsLess exact) where
  same found := ⟨List.Sublist.refl found, rfl, fun _ => rfl⟩
  append h hothers := by
    refine ⟨h.sublist.append hothers.sublist, ?_, ?_⟩
    · rw [withoutMismatches_append, withoutMismatches_append, h.others, hothers.others]
    · intro hexact
      rw [h.same hexact, hothers.same hexact]

theorem FindsLess.nothing {exact : Prop} {found : List Violation}
    (hmismatches : ∀ violation ∈ found, violation.isMismatch = true) (hnone : exact → found = []) :
    FindsLess exact found [] where
  sublist := List.nil_sublist found
  others := (withoutMismatches_eq_nil hmismatches).symm
  same hexact := (hnone hexact).symm

namespace Context

section

variable {types : Universe} {options : Options} {exact : Prop}

/-- The same place with what is left of its rules. Rules that fail behind a subfield or a key are
only there if mismatches may be found no longer. -/
structure LeftAt (types : Universe) (options : Options) (gates : GateView) (exact : Prop)
    (site site' : Site) : Prop where
  left : site' = site.withRules (prunedRules gates site.rules)
  typed : site.Typed ⟨types, options⟩
  passable : exact → ∀ rule ∈ site.rules, rule.isPassable gates = true

/-- Without the tags that do not stand, walks over the value find less at such places. -/
def WalksLeft (types : Universe) (options : Options) (gates : GateView) (exact : Prop) :
    Value → Prop :=
  Tallies ⟨(compile types options).schema, gates⟩
    ⟨(compile (types.pruned gates) options).schema, gates⟩
    (LeftAt types options gates exact) (FindsLess exact)

theorem LeftAt.place {site site' : Site} (h : LeftAt types options gates exact site site') :
    ∃ rules named, site' = site.relocate rules named := by
  refine ⟨prunedRules gates site.rules, site.plan.access.named, ?_⟩
  rw [h.left, Site.relocate, Plan.withNamed_self]
  rfl

theorem LeftAt.single {site : Site} {rule left : Rule} (hleft : rule.prune? gates = some left)
    (hrules : site.rules = [rule]) (htyped : site.Typed ⟨types, options⟩)
    (hpassable : exact → rule.isPassable gates = true) :
    LeftAt types options gates exact site (site.withRules [left]) where
  left := by
    rw [hrules, prunedRules, List.filterMap_cons, hleft]
    rfl
  typed := htyped
  passable hexact := by
    rw [hrules]
    exact List.forall_mem_singleton.mpr (hpassable hexact)

variable (hok : (compile types options).isOk = true)
variable (hexact : exact → ∀ rule ∈ (compile types options).schema.rules,
  rule.isPassable gates = true)

section

include hok

theorem lentRules_left (named : List String) :
    lentRules ⟨(compile (types.pruned gates) options).schema, gates⟩ named =
      prunedRules gates (lentRules ⟨(compile types options).schema, gates⟩ named) := by
  induction named with
  | nil => rfl
  | cons name named ih =>
    rw [lentRules] at ih ⊢
    rw [lentRules, List.flatMap_cons, List.flatMap_cons, ih, prunedRules_append]
    congr 1
    simp only [schema_get?_pruned hok]
    cases (compile types options).schema.get? name with
    | none => rfl
    | some type => exact activeRules_prunedRules type.rules

theorem LeftAt.rulesAt_eq {site site' : Site} (h : LeftAt types options gates exact site site') :
    rulesAt ⟨(compile (types.pruned gates) options).schema, gates⟩ site' =
      prunedRules gates (rulesAt ⟨(compile types options).schema, gates⟩ site) := by
  rw [h.left]
  simp only [rulesAt, Site.withRules, activeRules_prunedRules, lentRules_left hok]
  split
  next => rfl
  next => rw [prunedRules_append]

end

theorem ownConstraints_left (schema schema' : Schema) (site : Site) :
    ownConstraints ⟨schema', gates⟩ (site.withRules (prunedRules gates site.rules)) =
      (ownConstraints ⟨schema, gates⟩ site).map (Constraint.pruned gates) := by
  simp only [ownConstraints, Site.withRules, activeRules_prunedRules, constraints_prunedRules]

include hexact in
theorem LeftAt.passable_rulesAt {site site' : Site}
    (h : LeftAt types options gates exact site site') (his : exact) :
    ∀ rule ∈ rulesAt ⟨(compile types options).schema, gates⟩ site,
      rule.isPassable gates = true := by
  intro active hactive
  obtain ⟨rule, hgiven, hresolve⟩ := exists_givenAt hactive
  apply Rule.isPassable_resolve hresolve
  cases hgiven with
  | own hrule => exact h.passable his rule hrule
  | lent hname htype hrule => exact hexact his rule (Schema.mem_rules_of_type htype hrule)

include hexact in
theorem LeftAt.passable_within {site site' : Site} (h : LeftAt types options gates exact site site')
    (isPlace : Place → Bool) (his : exact) :
    ∀ rule ∈ rulesWithin isPlace (rulesAt ⟨(compile types options).schema, gates⟩ site),
      rule.isPassable gates = true := by
  intro rule hrule
  obtain ⟨place, tag, -, hrule⟩ := mem_rulesWithin_iff.mp hrule
  exact Rule.isPassable_inner (h.passable_rulesAt hexact his _ hrule)

/-! ## Rules of which nothing is left -/

section

variable {c : Context} {value : Value} {site : Site} {access : Access} {name : String}

/-- At a struct, such a rule only finds anything behind one of its fields. -/
theorem ruleViolations_eq_nil {rule : Rule} (hnone : rule.prune? gates = none)
    (hpassable : rule.isPassable gates = true) (hplan : site.plan = .struct access name) :
    c.ruleViolations value site rule = [] := by
  cases rule with
  | leaf constraint tag => cases hnone
  | guarded condition inner tag => rfl
  | within place inner tag =>
    rw [Rule.prune?, Option.map_eq_none_iff] at hnone
    cases place with
    | subfield jsonName =>
      rw [Rule.isPassable, hnone] at hpassable
      cases hpassable
    | item | eachVal | eachKey => simp only [ruleViolations, placeViolations, hplan]

theorem walk_eq_nil_of_struct (hshallow : site.isShallow = true)
    (hplan : site.plan = .struct access name)
    (hrules : ∀ rule ∈ site.rules, rule.prune? c.gates = none ∧ rule.isPassable c.gates = true)
    (hvalue : value.isNull = true ∨ value.isObject = true) : c.walk value site = [] := by
  have hactive : ∀ active ∈ activeRules c.gates site.rules,
      active.prune? c.gates = none ∧ active.isPassable c.gates = true := by
    intro active hactive
    obtain ⟨rule, hrule, hresolve⟩ := mem_activeRules_iff.mp hactive
    obtain ⟨hnone, hpassable⟩ := hrules rule hrule
    exact ⟨Rule.prune?_of_resolve hresolve hnone, Rule.isPassable_resolve hresolve hpassable⟩
  have hrulesAt : c.rulesAt site = activeRules c.gates site.rules := by
    rw [rulesAt, hshallow, if_pos rfl]
  generalize hfound : c.walk value site = found
  have hcourse : c.Course value site found := hfound ▸ c.course value site
  cases hcourse with
  | unchanged | absent => rfl
  | blocked hchanged hblocked =>
    -- None of the rules comes to a constraint, on presence or otherwise.
    have hown : c.ownConstraints site = [] :=
      constraints_eq_nil fun active hmem => Rule.arrives_of_prune? (hactive active hmem).1
    rw [hown, Site.blocked?_nil] at hblocked
    cases hblocked
  | unfit hchanged hclear hpresent hunfit =>
    -- A value that is there is an object, which fits every struct.
    rcases hvalue with hnull | hobject
    · rw [hnull, Bool.true_or] at hpresent
      cases hpresent
    · obtain ⟨members, rfl⟩ := isObject_iff.mp hobject
      rw [hplan] at hunfit
      cases hunfit
  | checked hchanged hclear hpresent hfits =>
    rw [checkedViolations, hshallow, if_pos rfl, List.append_nil, hrulesAt, List.flatMap_eq_nil_iff]
    intro active hmem
    obtain ⟨hnone, hpassable⟩ := hactive active hmem
    exact ruleViolations_eq_nil hnone hpassable hplan

/-- What is chosen by key fields is an object. -/
theorem selectedItem_isObject {selector : ItemSelector} (hkeys : selector.keys ≠ []) (list : Path)
    (semantics : ListSemantics) (items : List Value) :
    (selectedItem list semantics selector items).2.isNull = true ∨
      (selectedItem list semantics selector items).2.isObject = true := by
  rw [selectedItem]
  split
  next item position hfind =>
    exact .inr (ItemSelector.isObject_of_selects hkeys (List.find?_some hfind :))
  next => exact .inl rfl

end

/-! ## Rules that are compared -/

section

include hok hexact

variable {value : Value} {site site' : Site} {place : Place} {rule : Rule} {tag : String}

omit hok in
/-- A rule at another place of which nothing is left has found mismatches only, and nothing where no
condition fails behind a subfield. -/
theorem placeViolations_dropped (h : LeftAt types options gates exact site site')
    (hrule : .within place rule tag ∈ rulesAt ⟨(compile types options).schema, gates⟩ site)
    (hnone : rule.prune? gates = none) :
    FindsLess exact
      (placeViolations ⟨(compile types options).schema, gates⟩ value site place rule) [] := by
  apply FindsLess.nothing
  · intro violation hviolation
    exact isMismatch_of_mem_placeViolations (Rule.arrives_of_prune? hnone) hviolation
  · intro his
    have hpassable := h.passable_rulesAt hexact his _ hrule
    cases place with
    | subfield name =>
      rw [Rule.isPassable, hnone] at hpassable
      cases hpassable
    | item selector =>
      -- The compiler only accepts items of lists of structs, and at these nothing is a mismatch.
      cases hplan : site.plan with
      | list access element semantics =>
        cases value with
        | array items =>
          obtain ⟨hkeys, access', name, rfl⟩ := h.typed.item_isStruct hplan hrule
          simp only [placeViolations, hplan]
          refine walk_eq_nil_of_struct rfl rfl ?_ (selectedItem_isObject hkeys _ _ _)
          exact List.forall_mem_singleton.mpr ⟨hnone, hpassable⟩
        | _ => simp only [placeViolations, hplan]
      | _ => simp only [placeViolations, hplan]
    | eachVal | eachKey => simp only [placeViolations]

/-- A rule at another place of which something is left is applied to the same value there. -/
theorem placeViolations_left (h : LeftAt types options gates exact site site')
    (ih : ∀ inner, inner.LiesIn value → WalksLeft types options gates exact inner)
    (hrule : .within place rule tag ∈ rulesAt ⟨(compile types options).schema, gates⟩ site)
    {left : Rule} (hleft : rule.prune? gates = some left) :
    FindsLess exact
      (placeViolations ⟨(compile types options).schema, gates⟩ value site place rule)
      (placeViolations ⟨(compile (types.pruned gates) options).schema, gates⟩ value site' place
        left) := by
  have hcomposes := composes_findsLess exact
  have hpassable (his : exact) : rule.isPassable gates = true :=
    Rule.isPassable_inner (h.passable_rulesAt hexact his _ hrule)
  cases place with
  | subfield name =>
    apply hcomposes.subfield ih h.place
    intro access type hplan
    rw [h.left, struct?_pruned hok]
    cases hbody : (compile types options).schema.struct? type with
    | none => exact .none
    | some body =>
      rw [Option.map_some, Option.bind_some, Option.bind_some, CompiledStruct.field?_pruned]
      cases hfield : body.field? name with
      | none => exact .none
      | some field =>
        exact .some (.single hleft rfl (h.typed.subfield hplan hrule hbody hfield) hpassable)
  | item selector =>
    apply hcomposes.item ih h.place
    intro access element semantics hplan path
    rw [h.left]
    exact .single hleft rfl (h.typed.item hplan hrule path) hpassable
  | eachVal | eachKey =>
    simp only [placeViolations]
    exact hcomposes.same []

/-- What one rule finds, and what is left of it. -/
theorem ruleViolations_left (h : LeftAt types options gates exact site site')
    (ih : ∀ inner, inner.LiesIn value → WalksLeft types options gates exact inner)
    (hrule : rule ∈ rulesAt ⟨(compile types options).schema, gates⟩ site) :
    FindsLess exact
      (ruleViolations ⟨(compile types options).schema, gates⟩ value site rule)
      ((rule.prune? gates).elim [] (ruleViolations
        ⟨(compile (types.pruned gates) options).schema, gates⟩ value site')) := by
  have hsame := (composes_findsLess exact).same
  cases rule with
  | leaf constraint tag =>
    rw [h.left]
    simp only [Rule.prune?, Option.elim_some, ruleViolations, Constraint.breach?_pruned]
    exact hsame _
  | guarded condition inner tag =>
    rw [Rule.prune?]
    split
    next => cases inner.prune? gates <;> exact hsame []
    next => exact hsame []
  | within place inner tag =>
    rw [Rule.prune?]
    cases hleft : inner.prune? gates with
    | none => exact placeViolations_dropped hexact h hrule hleft
    | some left => exact placeViolations_left hok hexact h ih hrule hleft

theorem rules_left (h : LeftAt types options gates exact site site')
    (ih : ∀ inner, inner.LiesIn value → WalksLeft types options gates exact inner) :
    FindsLess exact
      ((rulesAt ⟨(compile types options).schema, gates⟩ site).flatMap
        (ruleViolations ⟨(compile types options).schema, gates⟩ value site))
      ((rulesAt ⟨(compile (types.pruned gates) options).schema, gates⟩ site').flatMap
        (ruleViolations ⟨(compile (types.pruned gates) options).schema, gates⟩ value site')) := by
  rw [h.rulesAt_eq hok, flatMap_prunedRules]
  apply (composes_findsLess exact).flatMap_same
  intro rule hrule
  exact ruleViolations_left hok hexact h ih hrule

omit hok hexact in
/-- A key with rules of which nothing is left is no longer looked at. -/
theorem keyViolations_dropped {c : Context} {key : Plan} {rules : List Rule} {name : String}
    (hnamed : key.access.named = []) (hnone : ∀ rule ∈ rules, rule.prune? c.gates = none)
    (hstands : exact → ∀ rule ∈ rules, rule.prune? c.gates ≠ none) :
    FindsLess exact (c.keyViolations site key rules name) [] := by
  apply FindsLess.nothing
  · intro violation hviolation
    rw [keyViolations] at hviolation
    split at hviolation
    next => cases hviolation
    next =>
      apply isMismatch_of_mem_mapKey hnamed _ hviolation
      exact fun rule hrule => Rule.arrives_of_prune? (hnone rule hrule)
  · intro his
    -- Without rules the key was not looked at before.
    have hempty : rules = [] := by
      rw [List.eq_nil_iff_forall_not_mem]
      exact fun rule hrule => hstands his rule hrule (hnone rule hrule)
    rw [keyViolations, hempty, hnamed, List.isEmpty_nil, List.isEmpty_nil, Bool.and_true,
      Bool.or_true, if_pos rfl]

omit hok in
theorem LeftAt.stands_eachKey (h : LeftAt types options gates exact site site') (his : exact) :
    ∀ rule ∈ rulesWithin Place.isEachKey (rulesAt ⟨(compile types options).schema, gates⟩ site),
      rule.prune? gates ≠ none := by
  intro inner hinner hnone
  obtain ⟨place, tag, hplace, hrule⟩ := mem_rulesWithin_iff.mp hinner
  have hpassable := h.passable_rulesAt hexact his _ hrule
  cases place with
  | eachKey =>
    rw [Rule.isPassable, hnone] at hpassable
    cases hpassable
  | _ => cases hplace

theorem keyViolations_left (h : LeftAt types options gates exact site site')
    {access : Access} {key entry : Plan} (hplan : site.plan = .map access key entry)
    {name : String} (ih : WalksLeft types options gates exact (key.keyValue name)) :
    FindsLess exact
      (keyViolations ⟨(compile types options).schema, gates⟩ site key
        (rulesWithin Place.isEachKey (rulesAt ⟨(compile types options).schema, gates⟩ site)) name)
      (keyViolations ⟨(compile (types.pruned gates) options).schema, gates⟩ site' key
        (rulesWithin Place.isEachKey
          (rulesAt ⟨(compile (types.pruned gates) options).schema, gates⟩ site')) name) := by
  have hsame := (composes_findsLess exact).same
  have htyped : (site.mapKey key (rulesWithin Place.isEachKey
      (rulesAt ⟨(compile types options).schema, gates⟩ site)) name).Typed ⟨types, options⟩ :=
    h.typed.mapKey hplan name
  have hpassable := h.passable_within hexact Place.isEachKey
  have hstands := h.stands_eachKey hexact
  rw [h.rulesAt_eq hok, rulesWithin_prunedRules]
  generalize rulesWithin Place.isEachKey (rulesAt ⟨(compile types options).schema, gates⟩ site) =
    rules at htyped hpassable hstands ⊢
  cases hskip : (prunedRules gates rules).isEmpty && key.access.named.isEmpty with
  | true =>
    obtain ⟨hdropped, hnamed⟩ := Bool.and_eq_true_iff.mp hskip
    have hnone : ∀ rule ∈ rules, rule.prune? gates = none :=
      List.filterMap_eq_nil_iff.mp (List.isEmpty_iff.mp hdropped)
    have hnothing : keyViolations ⟨(compile (types.pruned gates) options).schema, gates⟩ site' key
        (prunedRules gates rules) name = [] := by
      rw [keyViolations, hskip, Bool.or_true, if_pos rfl]
    rw [hnothing]
    exact keyViolations_dropped (List.isEmpty_iff.mp hnamed) hnone hstands
  | false =>
    have hkept : (rules.isEmpty && key.access.named.isEmpty) = false := by
      cases rules with
      | nil => exact hskip
      | cons => rfl
    have hold : site'.old = site.old := by
      rw [h.left]
      rfl
    rw [keyViolations, keyViolations, hold, hskip, hkept, Bool.or_false]
    split
    next => exact hsame []
    next => exact ih _ _ ⟨by rw [h.left]; rfl, htyped, hpassable⟩

theorem comparison_left :
    Comparison ⟨(compile types options).schema, gates⟩
      ⟨(compile (types.pruned gates) options).schema, gates⟩
      (LeftAt types options gates exact) (FindsLess exact) where
  toComposes := composes_findsLess exact
  place h := h.place
  blocked := by
    rintro site _ ⟨rfl, -, -⟩ value
    rw [ownConstraints_left (compile types options).schema, Site.blocked?_pruned]
  mismatch := by
    intro site site' h value
    rw [h.rulesAt_eq hok, constraints_prunedRules, Site.mismatch_pruned]
  rules := by
    intro value ih site site' h
    exact rules_left hok hexact h ih
  struct := by
    rintro site _ ⟨rfl, -, -⟩ hdeep access name hplan
    rw [struct?_pruned hok]
    cases hbody : (compile types options).schema.struct? name with
    | none => exact .none
    | some body =>
      refine .some ⟨rfl, rfl, List.forall₂_map_right_iff.mpr (List.forall₂_same.mpr ?_)⟩
      intro field hfield
      refine ⟨rfl, rfl, .field hbody hfield site _, ?_⟩
      exact fun his rule hrule => hexact his rule (Schema.mem_rules_of_field hbody hfield hrule)
  element := by
    intro site site' h hdeep access element semantics hplan position item
    rw [h.rulesAt_eq hok, rulesWithin_prunedRules]
    refine ⟨?_, h.typed.element hplan position item, h.passable_within hexact Place.isEachVal⟩
    rw [h.left]
    rfl
  entry := by
    intro site site' h hdeep access key entry hplan name
    rw [h.rulesAt_eq hok, rulesWithin_prunedRules]
    refine ⟨?_, h.typed.entry hplan name, h.passable_within hexact Place.isEachVal⟩
    rw [h.left]
    rfl
  key := by
    intro site site' h hdeep access key entry hplan name ih
    exact keyViolations_left hok hexact h hplan ih

end

end

end Context

/-! ## Whole objects -/

/-- Without the tags that have a condition in them that does not hold, the same is accepted and only
mismatches are found no longer, in any object of any type. Where no such condition is in a rule on a
subfield or on keys, the same is found. -/
theorem validate_pruned {types : Universe} {options : Options}
    (hok : (compile types options).isOk = true) (gates : GateView) :
    (compile (types.pruned gates) options).isOk = true ∧
      ∀ name, (compile types options).schema.contains name = true →
        ∀ (new : Value) (old : Option Value), ∃ found found',
          validate (compile types options).schema name gates new old = .ok found ∧
          validate (compile (types.pruned gates) options).schema name gates new old = .ok found' ∧
          found'.Sublist found ∧ withoutMismatches found' = withoutMismatches found ∧
          ((∀ rule ∈ (compile types options).schema.rules, rule.isPassable gates = true) →
            found' = found) := by
  refine ⟨isOk_pruned hok gates, ?_⟩
  intro name hknown new old
  obtain ⟨type, hget, hvalidate⟩ := Schema.validate_of_contains hknown
  have hget' : (compile (types.pruned gates) options).schema.get? name =
      some (type.pruned gates) := by
    rw [schema_get?_pruned hok, hget]
    rfl
  have hknown' : (compile (types.pruned gates) options).schema.contains name = true := by
    rw [Catalog.contains, hget']
    rfl
  obtain ⟨type', htype', hvalidate'⟩ := Schema.validate_of_contains hknown'
  cases hget'.symm.trans htype'
  have hplan : (type.pruned gates).plan = type.plan := by
    rw [CompiledType.plan, CompiledType.plan, CompiledType.pruned]
    cases type.body <;> rfl
  have hroot : Context.LeftAt types options gates (∀ rule ∈ (compile types options).schema.rules,
      rule.isPassable gates = true) (.root type.plan old) (.root (type.pruned gates).plan old) :=
    ⟨by rw [hplan]; rfl, .root hget old, fun _ => List.forall_mem_nil _⟩
  have hless := (Context.comparison_left hok fun his => his).tallies new _ _ hroot
  exact ⟨_, _, hvalidate gates new old, hvalidate' gates new old, hless.sublist, hless.others,
    hless.same⟩

/-- A rack has numbered slots, where the numbers start at one if a gate is enabled. -/
def rackTypes : Universe := Catalog.ofList
  [⟨"Rack", [], .struct [⟨"Slots", none, .map (.scalar .int) (.scalar .string),
    ["+k8s:eachKey=+k8s:ifEnabled(CountFromOne)=+k8s:minimum=1"]⟩]⟩]

/-- Where the gate is disabled, a slot whose key is no number is still found, but not without the
tag. -/
theorem validate_pruned_rack :
    (compile rackTypes .default).isOk = true ∧
      (compile rackTypes .default).schema.contains "Rack" = true ∧
      ∃ found found',
        validate (compile rackTypes .default).schema "Rack" (fun _ => false)
          (.ofMembers [("slots", .ofMembers [("five", .string "a")])]) none = .ok found ∧
        validate (compile (rackTypes.pruned fun _ => false) .default).schema "Rack" (fun _ => false)
          (.ofMembers [("slots", .ofMembers [("five", .string "a")])]) none = .ok found' ∧
        found'.Sublist found ∧ withoutMismatches found = [] ∧ found.length = 1 ∧ found' = [] := by
  have hok : (compile rackTypes .default).isOk = true := by decide +kernel
  have hknown : (compile rackTypes .default).schema.contains "Rack" = true := by decide +kernel
  obtain ⟨-, hpruned⟩ := validate_pruned hok fun _ => false
  obtain ⟨found, found', hfound, hfound', hsublist, hothers, -⟩ := hpruned "Rack" hknown
    (.ofMembers [("slots", .ofMembers [("five", .string "a")])]) none
  have hlength : (validate (compile rackTypes .default).schema "Rack" (fun _ => false)
      (.ofMembers [("slots", .ofMembers [("five", .string "a")])]) none).toOption.map
        List.length = some 1 := by
    decide +kernel
  have hlength' : (validate (compile (rackTypes.pruned fun _ => false) .default).schema "Rack"
      (fun _ => false)
      (.ofMembers [("slots", .ofMembers [("five", .string "a")])]) none).toOption.map
        List.length = some 0 := by
    decide +kernel
  rw [hfound] at hlength
  rw [hfound'] at hlength'
  have hnothing : found' = [] := List.eq_nil_of_length_eq_zero (Option.some.inj hlength')
  rw [hnothing] at hothers
  exact ⟨hok, hknown, found, found', hfound, hfound', hsublist, hothers.symm,
    Option.some.inj hlength, hnothing⟩

end TaggedSchema
