import TaggedSchema.Proofs.Rule.Splitting
import TaggedSchema.Proofs.Validation.Retagging

/-!
# Tags that are split over a gate

A tag of a field can be split into two: the tag under the condition that a gate is enabled, and the
same tag under the condition that it is disabled. What is compiled never depends on a rule under a
condition, and at every view of the gates one of the two is active, so that nothing changes.
-/

namespace TaggedSchema

/-- A walk depends only on the rules that are active. -/
theorem RuleSwap.compares_nothing {s : RuleSwap} (hswapped : s.swapped = [])
    (hswapped' : s.swapped' = []) :
    s.Compares (fun _ _ => True) fun found found' => found' = found where
  toComposes := Context.composes_eq
  next _ _ _ _ := trivial
  blocked {value outer} _ := by
    rw [hswapped, hswapped']
    cases (s.siteIn outer).blocked? value
        ((s.front ++ [] ++ s.back).filterMap Rule.constraint?) with
    | none => exact .none
    | some violation => exact .some rfl
  mismatch _ _ _ lent := by rw [hswapped, hswapped']
  found _ _ _ := by
    rw [hswapped, hswapped']
    rfl

section

variable {types : Universe} {options : Options} (a : FieldLines types) {lines' : List String}
variable (hok : (compile types options).isOk = true)
variable (hok' : (compile (a.replaced lines') options).isOk = true)

include hok hok'

/-- Lines of a field may be replaced by lines whose rules shape as little, if the same rules are
active at every view of the gates. -/
theorem FieldLines.validate_replaced
    (hsame : ∀ rules rules', Compiler.BuildsLines ⟨types, options⟩ a.field a.lines rules →
      Compiler.BuildsLines ⟨types, options⟩ a.field lines' rules' →
        rules.filter Rule.shapes = [] ∧ rules'.filter Rule.shapes = [] ∧
          ∀ gates, activeRules gates rules' = activeRules gates rules)
    (name : String) (gates : GateView) (new : Value) (old : Option Value) :
    validate (compile (a.replaced lines') options).schema name gates new old =
      validate (compile types options).schema name gates new old := by
  obtain ⟨before, rules, rules', after, hrules, hrules', hreruled⟩ := a.exists_rerules hok hok'
  obtain ⟨hshapes, hshapes', hactive⟩ := hsame rules rules' hrules hrules'
  obtain ⟨compiled, hcompiled, -, hrerules⟩ := hreruled (hshapes'.trans hshapes.symm)
  cases htype : (compile types options).schema.get? name with
  | none =>
    have htype' : (compile (a.replaced lines') options).schema.get? name = none := by
      rw [hrerules.get?, htype, Option.map_none]
    simp only [validate, Schema.type, htype, htype', Except.map]
  | some type =>
    have hnone (rules : List Rule) : activeRules gates rules =
        activeRules gates rules ++ [] ++ [] := by
      rw [List.append_nil, List.append_nil]
    have hactive' : activeRules gates (before ++ rules' ++ after) =
        activeRules gates compiled.rules := by
      have hbetween := hactive gates
      rw [hcompiled]
      rw [activeRules, activeRules] at hbetween ⊢
      simp only [List.filterMap_append, hbetween]
    let s : RuleSwap := {
      schema := _
      schema' := _
      gates := gates
      owner := _
      position := _
      field := compiled
      rules := _
      rerules := hrerules
      front := activeRules gates compiled.rules
      swapped := []
      swapped' := []
      back := []
      active := hnone _
      active' := hactive'.trans (hnone _)
      plain := rfl
      plain' := rfl }
    have hcompares : s.Compares (fun _ _ => True) fun found found' => found' = found :=
      RuleSwap.compares_nothing rfl rfl
    obtain ⟨found, _, hfound, hfound', rfl⟩ :=
      hcompares.validate htype (trivial : (fun _ _ => True) new (Site.root type.plan old))
    exact hfound'.trans hfound.symm

/-- A tag of a field, of whatever kind, can be split into itself under the condition that a gate is
enabled and itself under the condition that this gate is disabled. Every object of every type has
the same violations in the same order as before. -/
theorem validate_split {tag : Tag} {on off : Tag.Head} {gate : String}
    (hlines : Compiler.compiledTags ⟨types, options⟩ .field a.lines = [tag])
    (hlines' : Compiler.compiledTags ⟨types, options⟩ .field lines' =
      [.composed on tag, .composed off tag])
    (hon : on.name = "ifEnabled") (hoff : off.name = "ifDisabled")
    (hgate : (Tag.composed on tag).gateName = .ok gate)
    (hgate' : (Tag.composed off tag).gateName = .ok gate)
    (name : String) (gates : GateView) (new : Value) (old : Option Value) :
    validate (compile (a.replaced lines') options).schema name gates new old =
      validate (compile types options).schema name gates new old := by
  apply a.validate_replaced hok hok'
  intro rules rules' hrules hrules'
  have htag : tag ∈ Compiler.compiledTags ⟨types, options⟩ .field a.lines := by simp [hlines]
  have hfirst : .composed on tag ∈ Compiler.compiledTags ⟨types, options⟩ .field lines' := by
    simp [hlines']
  have hsecond : .composed off tag ∈ Compiler.compiledTags ⟨types, options⟩ .field lines' := by
    simp [hlines']
  have hbuilds := hrules.compiledTags
  have hbuilds' := hrules'.compiledTags
  rw [hlines] at hbuilds
  rw [hlines'] at hbuilds'
  exact Compiler.buildsRules_opposite (hon ▸ rfl) (hoff ▸ rfl) hgate hgate'
    (Compiler.compiles_of_mem_compiledTags htag) (Compiler.compiles_of_mem_compiledTags hfirst)
    (Compiler.compiles_of_mem_compiledTags hsecond) hbuilds hbuilds'

end

/-- The cabins of a ship by their numbers. -/
def shipCabins : FieldDef :=
  ⟨"Cabins", none, .map (.scalar .string) (.named "Cabin"),
    ["+k8s:maxProperties=2", "+k8s:eachVal=+k8s:subfield(guest)=+k8s:maxLength=3",
      "+k8s:immutable"]⟩

def shipType : TypeDef := ⟨"Ship", [], .struct [shipCabins]⟩

def shipTypes : Universe := Catalog.ofList
  [⟨"Cabin", [], .struct [⟨"Guest", none, .scalar .string, []⟩]⟩, shipType]

/-- The line about the names of guests. -/
def guestLines : FieldLines shipTypes where
  type := shipType
  position := 0
  field := shipCabins
  front := ["+k8s:maxProperties=2"]
  lines := ["+k8s:eachVal=+k8s:subfield(guest)=+k8s:maxLength=3"]
  back := ["+k8s:immutable"]
  type_known := by rfl
  field_position := rfl
  field_tags := rfl

/-- The same line twice, under opposite conditions. -/
def guestLinesSplit : List String :=
  ["+k8s:ifEnabled(Long)=+k8s:eachVal=+k8s:subfield(guest)=+k8s:maxLength=3",
    "+k8s:ifDisabled(Long)=+k8s:eachVal=+k8s:subfield(guest)=+k8s:maxLength=3"]

/-- The tag in this line. -/
def guestTag : Tag :=
  .composed ⟨some "k8s", "eachVal", .field, [],
      "+k8s:eachVal=+k8s:subfield(guest)=+k8s:maxLength=3"⟩
    (.composed ⟨some "k8s", "subfield", .field, [⟨none, .word "guest"⟩],
        "+k8s:subfield(guest)=+k8s:maxLength=3"⟩
      (.valued ⟨some "k8s", "maxLength", .field, [], "+k8s:maxLength=3"⟩ (.int 3)))

/-- A condition of this name in front of the tag. -/
def guestHead (name : String) : Tag.Head :=
  ⟨some "k8s", name, .field, [⟨none, .word "Long"⟩],
    "+k8s:" ++ name ++ "(Long)=" ++ guestTag.raw⟩

/-- A ship with this guest in a cabin. -/
def shipOf (guest : String) : Value :=
  .ofMembers [("cabins", .ofMembers [("7", .ofMembers [("guest", .string guest)])])]

/-- The name of a guest is too long, whether the gate is enabled or not. -/
theorem validate_split_ship :
    (compile shipTypes .default).isOk = true ∧
      (compile (guestLines.replaced guestLinesSplit) .default).isOk = true ∧
      Compiler.compiledTags ⟨shipTypes, .default⟩ .field guestLines.lines = [guestTag] ∧
      Compiler.compiledTags ⟨shipTypes, .default⟩ .field guestLinesSplit =
        [.composed (guestHead "ifEnabled") guestTag,
          .composed (guestHead "ifDisabled") guestTag] ∧
      (Tag.composed (guestHead "ifEnabled") guestTag).gateName = .ok "Long" ∧
      (Tag.composed (guestHead "ifDisabled") guestTag).gateName = .ok "Long" ∧
      (∀ gates, validate (compile (guestLines.replaced guestLinesSplit) .default).schema "Ship"
          gates (shipOf "Isabel") none =
        validate (compile shipTypes .default).schema "Ship" gates (shipOf "Isabel") none) ∧
      ∀ enabled, (validate (compile shipTypes .default).schema "Ship" (fun _ => enabled)
        (shipOf "Isabel") none).toOption.map (List.map Violation.origin) =
          some ["maxLength"] := by
  have hok : (compile shipTypes .default).isOk = true := by
    decide +kernel
  have hok' : (compile (guestLines.replaced guestLinesSplit) .default).isOk = true := by
    decide +kernel
  have hlines : Compiler.compiledTags ⟨shipTypes, .default⟩ .field guestLines.lines =
      [guestTag] := by
    decide +kernel
  have hlines' : Compiler.compiledTags ⟨shipTypes, .default⟩ .field guestLinesSplit =
      [.composed (guestHead "ifEnabled") guestTag,
        .composed (guestHead "ifDisabled") guestTag] := by
    decide +kernel
  have hgate (name : String) : (Tag.composed (guestHead name) guestTag).gateName =
      .ok "Long" := rfl
  have hfound : ∀ enabled, (validate (compile shipTypes .default).schema "Ship"
      (fun _ => enabled) (shipOf "Isabel") none).toOption.map (List.map Violation.origin) =
        some ["maxLength"] := by
    decide +kernel
  exact ⟨hok, hok', hlines, hlines', hgate _, hgate _,
    fun gates => validate_split guestLines hok hok' hlines hlines' rfl rfl (hgate _) (hgate _)
      "Ship" gates (shipOf "Isabel") none, hfound⟩

end TaggedSchema
