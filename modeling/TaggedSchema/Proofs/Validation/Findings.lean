import TaggedSchema.Proofs.Validation.Descent

/-!
# Where violations are found

A violation is found at the value itself, at a repeated element, by a union of the struct, or by
the walk at a value inside. Whichever it is, its path leads to the value or further in.
-/

namespace TaggedSchema

/-! ## Places of violations -/

section

variable {outer : Path}

theorem violationsUnder_append (first second : List Violation) :
    violationsUnder outer (first ++ second) =
      violationsUnder outer first ++ violationsUnder outer second :=
  List.filter_append ..

theorem violationsUnder_flatMap_congr {α : Type} {l : List α} {f g : α → List Violation}
    (h : ∀ a ∈ l, violationsUnder outer (f a) = violationsUnder outer (g a)) :
    violationsUnder outer (l.flatMap f) = violationsUnder outer (l.flatMap g) := by
  simp only [violationsUnder, List.filter_flatMap]
  exact List.flatMap_congr h

theorem violationsUnder_map_nativeIf (violations : List Violation) (native : Bool) :
    violationsUnder outer (violations.map fun violation => violation.nativeIf native) =
      (violationsUnder outer violations).map fun violation => violation.nativeIf native := by
  simp only [violationsUnder, List.filter_map, Function.comp_def, Violation.nativeIf_path]

end

/-- The violation is at this path, and native if this is said of it. -/
structure Violation.IsAt (violation : Violation) (path : Path) (native : Bool) : Prop where
  path : violation.path = path
  native : violation.native = native

/-- Violations are not marked where they are found, but by the walk. -/
theorem Violation.IsAt.nativeIf {violation : Violation} {path : Path}
    (h : violation.IsAt path false) (native : Bool) :
    (violation.nativeIf native).IsAt path native := by
  cases native with
  | false => exact h
  | true => exact ⟨h.path, rfl⟩

theorem Path.startsWith_iff {path outer : Path} :
    path.startsWith outer = true ↔ outer.segments <+: path.segments :=
  List.isPrefixOf_iff_prefix

theorem violationsUnder_eq_nil {outer : Path} {violations : List Violation}
    (h : ∀ violation ∈ violations, ¬ outer.segments <+: violation.path.segments) :
    violationsUnder outer violations = [] :=
  List.filter_eq_nil_iff.mpr fun violation hviolation hunder =>
    h violation hviolation (Path.startsWith_iff.mp hunder)

/-- A path that ends at a value does not lead inside it. -/
theorem Path.not_under_extend (path : Path) (segment : Segment) :
    ¬ (path.extend segment).segments <+: path.segments := by
  intro hunder
  have hlength := hunder.length_le
  rw [extend, List.length_append, List.length_singleton] at hlength
  omega

/-- Two paths that both go on to a third one go on by the same segment. -/
theorem segment_unique {base rest path : List Segment} {a b : Segment}
    (ha : base ++ a :: rest <+: path) (hb : base ++ [b] <+: path) : a = b := by
  obtain ⟨after, rfl⟩ := ha
  obtain ⟨after', h⟩ := hb
  rw [List.append_assoc, List.append_assoc, List.append_cancel_left_eq] at h
  exact (List.cons.inj h).1.symm

/-- Elements are addressed by keys and positions, not by names. -/
theorem ListSemantics.elementPath_extend (semantics : ListSemantics) (list : Path)
    (position : Nat) (item : Value) :
    ∃ segment, semantics.elementPath list position item = list.extend segment ∧
      ∀ name, segment ≠ .field name := by
  rw [elementPath]
  split
  next identity _ _ => exact ⟨.key identity, rfl, by simp⟩
  next => exact ⟨.index position, rfl, by simp⟩

theorem selectedItem_extend (list : Path) (semantics : ListSemantics) (selector : ItemSelector)
    (items : List Value) :
    ∃ segment, (selectedItem list semantics selector items).1 = list.extend segment ∧
      ∀ name, segment ≠ .field name := by
  rw [selectedItem]
  generalize items.zipIdx.find? _ = found
  rcases found with _ | ⟨item, position⟩
  · exact ⟨.key selector.identity, rfl, by simp⟩
  · exact semantics.elementPath_extend list position item

theorem ListSemantics.eq_duplicate_of_mem {semantics : ListSemantics} {list : Path}
    {before items : List Value} {violation : Violation}
    (h : violation ∈ semantics.duplicatesAfter list before items) :
    ∃ position item, violation =
      .duplicate (semantics.elementPath list position item) item semantics.origin := by
  induction items generalizing before with
  | nil => cases h
  | cons item items ih =>
    rw [duplicatesAfter] at h
    rcases List.mem_append.mp h with h | h
    · split at h
      next => exact ⟨before.length, item, List.mem_singleton.mp h⟩
      next => cases h
    · exact ih h

theorem ListSemantics.mem_duplicatesAfter {semantics : ListSemantics} {list : Path}
    {before items : List Value} {violation : Violation}
    (h : violation ∈ semantics.duplicatesAfter list before items) :
    ∃ position item, violation.IsAt (semantics.elementPath list position item) false := by
  obtain ⟨position, item, rfl⟩ := eq_duplicate_of_mem h
  exact ⟨position, item, rfl, rfl⟩

/-- A breach is reported where the value stands, under the name of the constraint. -/
theorem Constraint.eq_of_breach? {constraint : Constraint} {gates : GateView} {path : Path}
    {value : Value} {violation : Violation}
    (h : constraint.breach? gates path value = some violation) :
    violation.IsAt path false ∧ violation.origin = constraint.origin := by
  have hlimit {size : Option Nat} {limit : Nat} {report : Nat → Violation}
      (hreport : ∀ actual,
        (report actual).IsAt path false ∧ (report actual).origin = constraint.origin)
      (h : overLimit? size limit report = some violation) :
      violation.IsAt path false ∧ violation.origin = constraint.origin := by
    obtain ⟨actual, -, rfl⟩ := Option.map_eq_some_iff.mp h
    exact hreport actual
  cases constraint with
  | minimum bound =>
    simp only [breach?] at h
    split at h
    · cases h; exact ⟨⟨rfl, rfl⟩, rfl⟩
    · cases h
  | maxLength limit | maxItems limit | maxProperties limit =>
    exact hlimit (fun _ => ⟨⟨rfl, rfl⟩, rfl⟩) h
  | format kind =>
    simp only [breach?] at h
    split at h
    · cases h
    · cases h; exact ⟨⟨rfl, rfl⟩, rfl⟩
  | enumeration members =>
    simp only [breach?] at h
    split at h
    · cases h
    · cases h; exact ⟨⟨rfl, rfl⟩, rfl⟩
  | differs other =>
    simp only [breach?] at h
    split at h
    · cases h; exact ⟨⟨rfl, rfl⟩, rfl⟩
    · cases h
  | _ => cases h

theorem Constraint.isAt_of_breach? {constraint : Constraint} {gates : GateView} {path : Path}
    {value : Value} {violation : Violation}
    (h : constraint.breach? gates path value = some violation) : violation.IsAt path false :=
  (eq_of_breach? h).1

theorem Constraint.origin_of_breach? {constraint : Constraint} {gates : GateView} {path : Path}
    {value : Value} {violation : Violation}
    (h : constraint.breach? gates path value = some violation) :
    violation.origin = constraint.origin :=
  (eq_of_breach? h).2

theorem Site.isAt_of_blocked? {site : Site} {value : Value} {rules : List Constraint}
    {violation : Violation} (h : site.blocked? value rules = some violation) :
    violation.IsAt site.path false := by
  rw [blocked?, Option.or_eq_some_iff] at h
  rcases h with h | ⟨-, h⟩
  · obtain ⟨constraint, -, change, detail, -, rfl⟩ := exists_of_rejection? h
    exact ⟨rfl, rfl⟩
  · obtain ⟨constraint, -, h⟩ := List.exists_of_findSome?_eq_some h
    rw [Constraint.presence?.eq_def] at h
    split at h
    · cases h; exact ⟨rfl, rfl⟩
    · cases h; exact ⟨rfl, rfl⟩
    · cases h

/-- Without constraints nothing stops a walk. -/
theorem Site.blocked?_nil (site : Site) (value : Value) : site.blocked? value [] = none := by
  rw [blocked?, rejection?, List.findSome?_nil, Option.or_none]
  cases site.old with
  | none => rfl
  | some old =>
    simp only [Option.bind_eq_bind, Option.bind_some, List.findSome?_nil]
    cases site.plan.change? old value <;> rfl

namespace UnionGroup

/-- The places at which the checks of a union report: the struct, a member, or the discriminator. -/
inductive ReportsAt (group : UnionGroup) (struct : Path) : Path → Prop
  | struct : ReportsAt group struct struct
  | member {member : UnionMember} (hmember : member ∈ group.members) :
      ReportsAt group struct (member.path struct)
  | discriminator {jsonName : String} (hjsonName : group.discriminator = some jsonName) :
      ReportsAt group struct (struct.field jsonName)

theorem ReportsAt.under {group : UnionGroup} {struct path : Path}
    (h : group.ReportsAt struct path) : struct.segments <+: path.segments := by
  cases h with
  | struct => exact List.prefix_rfl
  | member hmember =>
    -- A member is a field, or an item of a field under the key that selects it.
    rw [UnionMember.path]
    split
    · exact (List.prefix_append _ _).trans (List.prefix_append _ _)
    · exact List.prefix_append _ _
  | discriminator => exact List.prefix_append _ _

variable {group : UnionGroup} {path : Path} {object : Value} {violation : Violation}

theorem mem_of_mem_setMembers {member : UnionMember} (h : member ∈ group.setMembers object) :
    member ∈ group.members :=
  (List.mem_filter.mp h).1

/-- The checks of a union report as that union. -/
theorem mem_unionViolations (h : violation ∈ group.unionViolations path object) :
    violation.origin = "union" ∧
      ∃ place, group.ReportsAt path place ∧ violation.IsAt place false := by
  rw [unionViolations] at h
  split at h
  next discriminator hdiscriminator =>
    simp only [discriminatedViolations] at h
    split at h
    next chosen hchosen =>
      obtain ⟨name, -, hmember⟩ := Option.bind_eq_some_iff.mp hchosen
      simp only [chosenViolations, List.mem_append] at h
      rcases h with h | h
      · split at h
        · cases h
        · rw [List.mem_singleton.mp h]
          exact ⟨rfl, _, .member (List.mem_of_find?_eq_some hmember), rfl, rfl⟩
      · obtain ⟨first, hfirst, rfl⟩ := List.mem_map.mp (Option.toList_map .. ▸ h)
        have hset := List.mem_of_mem_head? (Option.mem_toList.mp hfirst)
        exact ⟨rfl, _, .member (mem_of_mem_setMembers (List.mem_filter.mp hset).1), rfl, rfl⟩
    next =>
      split at h
      · cases h
      · rw [List.mem_singleton.mp h]
        exact ⟨rfl, _, .discriminator hdiscriminator, rfl, rfl⟩
  next =>
    rw [plainViolations] at h
    split at h
    · cases h
    · rw [List.mem_singleton.mp h]
      exact ⟨rfl, _, .struct, rfl, rfl⟩
    · rw [List.mem_singleton.mp h]
      exact ⟨rfl, _, .struct, rfl, rfl⟩

theorem isAt_of_mem_zeroOrOneViolations (h : violation ∈ group.zeroOrOneViolations path object) :
    violation.IsAt path false := by
  rw [zeroOrOneViolations] at h
  split at h
  next => cases h
  next => cases h
  next =>
    rw [List.mem_singleton.mp h]
    exact ⟨rfl, rfl⟩

end UnionGroup

theorem CompiledStruct.mem_unionViolations {body : CompiledStruct} {path : Path} {object : Value}
    {old : Option Value} {violation : Violation}
    (h : violation ∈ body.unionViolations path object old) :
    violation.IsAt path false ∨ violation.origin = "union" ∧
      ∃ group ∈ body.unions, ∃ place, group.ReportsAt path place ∧ violation.IsAt place false := by
  rcases List.mem_append.mp h with h | h
  · obtain ⟨group, hgroup, h⟩ := List.mem_flatMap.mp h
    obtain ⟨horigin, hplace⟩ := UnionGroup.mem_unionViolations h
    exact .inr ⟨horigin, group, (List.mem_filter.mp hgroup).1, hplace⟩
  · obtain ⟨group, -, h⟩ := List.mem_flatMap.mp h
    exact .inl (UnionGroup.isAt_of_mem_zeroOrOneViolations h)

theorem CompiledStruct.jsonName_of_field? {body : CompiledStruct} {jsonName : String}
    {field : CompiledField} (h : body.field? jsonName = some field) :
    field.jsonName = jsonName := by
  simpa using List.find?_some h

namespace Context

variable (c : Context)

/-! ## The next values of a walk -/

/-- A walk that checks the value at a site goes on at `inner`, at a site of its own. -/
inductive LeadsTo (value : Value) (site : Site) : (inner : Value) → (innerSite : Site) → Prop where
  | subfield {access : Access} {type name tag : String} {body : CompiledStruct}
      {field : CompiledField} {rule : Rule} (hplan : site.plan = .struct access type)
      (hobject : value.isObject = true) (hbody : c.schema.struct? type = some body)
      (hfield : body.field? name = some field)
      (hrule : .within (.subfield name) rule tag ∈ c.rulesAt site) :
      LeadsTo value site (value.member name) (site.field field [rule] true)
  | item {access : Access} {element : Plan} {semantics : ListSemantics} {items : List Value}
      {selector : ItemSelector} {rule : Rule} {tag : String}
      (hplan : site.plan = .list access element semantics) (hitems : value = .array items)
      (hrule : .within (.item selector) rule tag ∈ c.rulesAt site) :
      LeadsTo value site (selectedItem site.path semantics selector items).2
        (site.item (selectedItem site.path semantics selector items).1 selector element rule)
  | field {access : Access} {type : String} {body : CompiledStruct} {field : CompiledField}
      (hdeep : site.isShallow = false) (hplan : site.plan = .struct access type)
      (hobject : value.isObject = true) (hbody : c.schema.struct? type = some body)
      (hfield : field ∈ body.fields) :
      LeadsTo value site (value.member field.jsonName)
        (site.field field field.rules field.isOpaque)
  | element {access : Access} {element : Plan} {semantics : ListSemantics} {items : List Value}
      {item : Value} {position : Nat} (hdeep : site.isShallow = false)
      (hplan : site.plan = .list access element semantics) (hitems : value = .array items)
      (hitem : items[position]? = some item) :
      LeadsTo value site item
        (site.element element semantics (rulesWithin Place.isEachVal (c.rulesAt site)) position
          item)
  | entry {access : Access} {key entry : Plan} {members : List (String × Value)} {name : String}
      {inner : Value} (hdeep : site.isShallow = false) (hplan : site.plan = .map access key entry)
      (hmembers : value = .object members) (hentry : (name, inner) ∈ members) :
      LeadsTo value site inner
        (site.entry entry (rulesWithin Place.isEachVal (c.rulesAt site)) name)
  | key {access : Access} {key entry : Plan} {members : List (String × Value)} {name : String}
      {inner : Value} (hdeep : site.isShallow = false) (hplan : site.plan = .map access key entry)
      (hmembers : value = .object members) (hentry : (name, inner) ∈ members)
      (hnew : (site.old.bind fun old => old.member? name) = none)
      (hchecked : ((rulesWithin Place.isEachKey (c.rulesAt site)).isEmpty &&
        key.access.named.isEmpty) = false) :
      LeadsTo value site (key.keyValue name)
        (site.mapKey key (rulesWithin Place.isEachKey (c.rulesAt site)) name)

/-- What a walk that checks the value finds there, apart from what it finds at the next values. -/
inductive FoundHere (value : Value) (site : Site) (violation : Violation) : Prop where
  | breach {constraint : Constraint} {tag : String} {found : Violation}
      (hrule : .leaf constraint tag ∈ c.rulesAt site)
      (hbreach : constraint.breach? c.gates site.path value = some found)
      (heq : violation = found.nativeIf site.native)
  | repeated {access : Access} {element : Plan} {semantics : ListSemantics} {items : List Value}
      {found : Violation} (hdeep : site.isShallow = false)
      (hplan : site.plan = .list access element semantics) (hitems : value = .array items)
      (hunique : semantics.checksUniqueness = true)
      (hfound : found ∈ semantics.duplicates site.path items)
      (heq : violation = found.nativeIf site.native)
  | union {access : Access} {type : String} {body : CompiledStruct} {found : Violation}
      (hdeep : site.isShallow = false) (hplan : site.plan = .struct access type)
      (hobject : value.isObject = true) (hbody : c.schema.struct? type = some body)
      (hfound : found ∈ body.unionViolations site.path value site.existing)
      (heq : violation = found.nativeIf site.native)

/-- A walk that checks the value finds this there or at one of the next values. -/
def Found (value : Value) (site : Site) (violation : Violation) : Prop :=
  c.FoundHere value site violation ∨
    ∃ inner innerSite, c.LeadsTo value site inner innerSite ∧ violation ∈ c.walk inner innerSite

variable {c} {value : Value} {site : Site} {violation : Violation}

theorem found_of_mem_ruleViolations {rule : Rule} (hrule : rule ∈ c.rulesAt site)
    (h : violation ∈ c.ruleViolations value site rule) : c.Found value site violation := by
  cases rule with
  | leaf constraint tag =>
    rw [ruleViolations, Option.mem_toList, Option.map_eq_some_iff] at h
    obtain ⟨found, hbreach, rfl⟩ := h
    exact .inl (.breach hrule hbreach rfl)
  | within place rule tag =>
    rw [ruleViolations] at h
    unfold placeViolations at h
    split at h
    next name access type members hplan =>
      split at h
      next field hfield =>
        obtain ⟨body, hbody, hfield⟩ := Option.bind_eq_some_iff.mp hfield
        exact .inr ⟨_, _, .subfield hplan rfl hbody hfield hrule, h⟩
      next => cases h
    next selector access element semantics items hplan =>
      exact .inr ⟨_, _, .item hplan rfl hrule, h⟩
    next => cases h
  | guarded condition inner tag => cases h

theorem found_of_mem_insideViolations (hdeep : site.isShallow = false)
    (h : violation ∈ c.insideViolations value site (c.rulesAt site)) :
    c.Found value site violation := by
  unfold insideViolations at h
  split at h
  next access type members hplan =>
    split at h
    next body hbody =>
      rcases List.mem_append.mp h with h | h
      · obtain ⟨field, hfield, h⟩ := List.mem_flatMap.mp h
        exact .inr ⟨_, _, .field hdeep hplan rfl hbody hfield, h⟩
      · obtain ⟨found, hfound, rfl⟩ := List.mem_map.mp h
        exact .inl (.union hdeep hplan rfl hbody hfound rfl)
    next => cases h
  next access element semantics items hplan =>
    rcases List.mem_append.mp h with h | h
    · obtain ⟨found, hfound, rfl⟩ := List.mem_map.mp h
      split at hfound
      next hunique => exact .inl (.repeated hdeep hplan rfl hunique hfound rfl)
      next => cases hfound
    · obtain ⟨⟨item, position⟩, hitem, h⟩ := List.mem_flatMap.mp h
      exact .inr ⟨_, _, .element hdeep hplan rfl (List.mem_zipIdx_iff_getElem?.mp hitem), h⟩
  next access key entry members hplan =>
    obtain ⟨⟨name, inner⟩, hentry, h⟩ := List.mem_flatMap.mp h
    rcases List.mem_append.mp h with h | h
    · rw [keyViolations] at h
      split at h
      next => cases h
      next hskip =>
        obtain ⟨hnew, hchecked⟩ := Bool.or_eq_false_iff.mp (eq_false_of_ne_true hskip)
        have hnew := Option.not_isSome_iff_eq_none.mp (Bool.eq_false_iff.mp hnew)
        exact .inr ⟨_, _, .key hdeep hplan rfl hentry hnew hchecked, h⟩
    · exact .inr ⟨_, _, .entry hdeep hplan rfl hentry, h⟩
  next => cases h

theorem found_of_mem_checkedViolations (h : violation ∈ c.checkedViolations value site) :
    c.Found value site violation := by
  rcases List.mem_append.mp h with h | h
  · obtain ⟨rule, hrule, h⟩ := List.mem_flatMap.mp h
    exact found_of_mem_ruleViolations hrule h
  · cases hdeep : site.isShallow with
    | true =>
      rw [hdeep] at h
      cases h
    | false =>
      rw [hdeep] at h
      exact found_of_mem_insideViolations hdeep h

theorem mem_checkedViolations_of_mem_inside (hdeep : site.isShallow = false)
    (h : violation ∈ c.insideViolations value site (c.rulesAt site)) :
    violation ∈ c.checkedViolations value site := by
  rw [checkedViolations, hdeep]
  exact List.mem_append_right _ h

theorem mem_checkedViolations_of_mem_rule {rule : Rule} (hrule : rule ∈ c.rulesAt site)
    (h : violation ∈ c.ruleViolations value site rule) :
    violation ∈ c.checkedViolations value site :=
  List.mem_append_left _ (List.mem_flatMap.mpr ⟨rule, hrule, h⟩)

/-- What is found at the next values belongs to what is found at this one. -/
theorem LeadsTo.subset {inner : Value} {innerSite : Site}
    (hleads : c.LeadsTo value site inner innerSite) (h : violation ∈ c.walk inner innerSite) :
    violation ∈ c.checkedViolations value site := by
  cases hleads with
  | subfield hplan hobject hbody hfield hrule =>
    obtain ⟨members, rfl⟩ := isObject_iff.mp hobject
    apply mem_checkedViolations_of_mem_rule hrule
    simp only [ruleViolations, placeViolations, hplan, hbody, Option.bind_some, hfield]
    exact h
  | item hplan hitems hrule =>
    subst hitems
    apply mem_checkedViolations_of_mem_rule hrule
    simp only [ruleViolations, placeViolations, hplan]
    exact h
  | field hdeep hplan hobject hbody hfield =>
    obtain ⟨members, rfl⟩ := isObject_iff.mp hobject
    apply mem_checkedViolations_of_mem_inside hdeep
    simp only [insideViolations, hplan, hbody]
    exact List.mem_append_left _ (List.mem_flatMap.mpr ⟨_, hfield, h⟩)
  | element hdeep hplan hitems hitem =>
    subst hitems
    apply mem_checkedViolations_of_mem_inside hdeep
    simp only [insideViolations, hplan]
    refine List.mem_append_right _ (List.mem_flatMap.mpr ⟨(inner, _), ?_, h⟩)
    exact List.mem_zipIdx_iff_getElem?.mpr hitem
  | entry hdeep hplan hmembers hentry =>
    subst hmembers
    apply mem_checkedViolations_of_mem_inside hdeep
    simp only [insideViolations, hplan]
    exact List.mem_flatMap.mpr ⟨_, hentry, List.mem_append_right _ h⟩
  | key hdeep hplan hmembers hentry hnew hchecked =>
    subst hmembers
    apply mem_checkedViolations_of_mem_inside hdeep
    simp only [insideViolations, hplan]
    refine List.mem_flatMap.mpr ⟨_, hentry, List.mem_append_left _ ?_⟩
    rw [keyViolations, hnew, hchecked]
    exact h

theorem LeadsTo.liesIn {inner : Value} {innerSite : Site}
    (hleads : c.LeadsTo value site inner innerSite) : inner.LiesIn value := by
  cases hleads with
  | subfield hplan hobject =>
    obtain ⟨members, rfl⟩ := isObject_iff.mp hobject
    exact Value.member_liesIn members _
  | item hplan hitems =>
    subst hitems
    exact selectedItem_liesIn ..
  | field hdeep hplan hobject =>
    obtain ⟨members, rfl⟩ := isObject_iff.mp hobject
    exact Value.member_liesIn members _
  | element hdeep hplan hitems hitem =>
    subst hitems
    exact .item (List.mem_iff_getElem?.mpr ⟨_, hitem⟩)
  | entry hdeep hplan hmembers hentry =>
    subst hmembers
    exact .entry hentry
  | key hdeep hplan hmembers hentry =>
    subst hmembers
    exact .scalar _ (keyValue_isScalar _ _)

/-- A violation is either found where its path ends, or the value is checked. -/
theorem mem_walk (h : violation ∈ c.walk value site) :
    site.isUnchanged value = false ∧
      (violation.IsAt site.path site.native ∨ c.Found value site violation) := by
  generalize hfound : c.walk value site = found at h
  have hcourse : c.Course value site found := hfound ▸ c.course value site
  cases hcourse with
  | unchanged hsame => cases h
  | blocked hchanged hblocked =>
    rw [List.mem_singleton.mp h]
    exact ⟨hchanged, .inl ((Site.isAt_of_blocked? hblocked).nativeIf _)⟩
  | absent hchanged hclear habsent => cases h
  | unfit hchanged hclear hpresent hunfit =>
    rw [List.mem_singleton.mp h]
    exact ⟨hchanged, .inl (Violation.IsAt.nativeIf ⟨rfl, rfl⟩ _)⟩
  | checked hchanged hclear hpresent hfits =>
    exact ⟨hchanged, .inr (found_of_mem_checkedViolations h)⟩

/-! ## Violations inside a value -/

theorem LeadsTo.path {inner : Value} {innerSite : Site}
    (hleads : c.LeadsTo value site inner innerSite) :
    ∃ segment, innerSite.path = site.path.extend segment := by
  cases hleads with
  | item =>
    obtain ⟨segment, hpath, -⟩ := selectedItem_extend ..
    exact ⟨segment, hpath⟩
  | element =>
    obtain ⟨segment, hpath, -⟩ := ListSemantics.elementPath_extend ..
    exact ⟨segment, hpath⟩
  | _ => exact ⟨_, rfl⟩

theorem FoundHere.under (h : c.FoundHere value site violation) :
    site.path.segments <+: violation.path.segments := by
  cases h with
  | breach hrule hbreach heq =>
    rw [heq, Violation.nativeIf_path]
    exact (Constraint.isAt_of_breach? hbreach).path ▸ List.prefix_rfl
  | @repeated access element semantics items found hdeep hplan hitems hunique hfound heq =>
    obtain ⟨position, item, hat⟩ := ListSemantics.mem_duplicatesAfter hfound
    obtain ⟨segment, hextend, -⟩ := semantics.elementPath_extend site.path position item
    rw [heq, Violation.nativeIf_path, hat.path, hextend]
    exact List.prefix_append _ _
  | union hdeep hplan hobject hbody hfound heq =>
    rw [heq, Violation.nativeIf_path]
    rcases CompiledStruct.mem_unionViolations hfound with hat | ⟨-, group, -, place, hplace, hat⟩
    · exact hat.path ▸ List.prefix_rfl
    · exact hat.path ▸ hplace.under

/-- Whatever a walk finds lies at its site or further in. -/
theorem walk_under (h : violation ∈ c.walk value site) :
    site.path.segments <+: violation.path.segments := by
  induction value using Value.liesIn_induct generalizing site with
  | step value ih =>
    rcases mem_walk h with ⟨-, hat | hhere | ⟨inner, innerSite, hleads, hinner⟩⟩
    · exact hat.path ▸ List.prefix_rfl
    · exact hhere.under
    · obtain ⟨segment, hextend⟩ := hleads.path
      have hunder := ih inner hleads.liesIn hinner
      rw [hextend] at hunder
      exact (List.prefix_append _ _).trans hunder

end Context

end TaggedSchema
