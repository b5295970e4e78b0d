import TaggedSchema.Proofs.Rule.Gates
import TaggedSchema.Proofs.Validation.Comparison
import TaggedSchema.Proofs.Validation.Findings

/-!
# Gates that a walk asks for

A walk asks for the gates of the rules that it comes to, and all of these are in the schema. So two
views find the same if they agree on the gates in the schema; with a registry, all gates in a schema
are registered.
-/

namespace TaggedSchema

/-! ## The gates of a schema -/

def Schema.gates (schema : Schema) : List String :=
  schema.rules.flatMap Rule.gates

/-- Every gate in a schema is registered. -/
theorem schema_registered {types : Universe} {options : Options} {registry : GateRegistry}
    (hregistry : options.gates = some registry) :
    ∀ gate ∈ (compile types options).schema.gates, registry.contains gate = true := by
  intro gate hgate
  obtain ⟨rule, hrule, hgate⟩ := List.mem_flatMap.mp hgate
  obtain ⟨compiled, hcompiled, hrule⟩ := List.mem_flatMap.mp hrule
  obtain ⟨type, -, hdefinition⟩ := definition_of_mem_schema hcompiled
  rcases List.mem_append.mp hrule with hrule | hrule
  · obtain ⟨-, hrules, -⟩ := Compiler.definition_spec hdefinition
    exact (Compiler.typeRules_accepts hrules hrule).registered hregistry gate hgate
  · cases hbody : compiled.body with
    | struct body =>
      rw [hbody] at hrule
      obtain ⟨field, hfield, hrule⟩ := List.mem_flatMap.mp hrule
      obtain ⟨definition, -, hcompiles⟩ :=
        exists_of_forall₂ (Compiler.definition_fields hdefinition hbody) hfield
      exact (Compiler.fieldRules_accepts hcompiles.rules hrule).registered hregistry gate hgate
    | _ =>
      rw [hbody] at hrule
      cases hrule

section

variable {gates gates' : GateView} {schema : Schema}

theorem Constraint.breach?_congr {constraint : Constraint}
    (h : AgreeOn constraint.gates gates gates') (path : Path) (value : Value) :
    constraint.breach? gates' path value = constraint.breach? gates path value := by
  cases constraint with
  | enumeration members => simp only [breach?, allowedValues_congr h]
  | _ => rfl

namespace Context

/-! ## Walks under views that agree -/

/-- The views agree on the gates of all rules at the site. -/
def AgreeAt (gates gates' : GateView) (site : Site) : Prop :=
  ∀ rule ∈ site.rules, AgreeOn rule.gates gates gates'

theorem agreeOn_rulesWithin {rules : List Rule} (isPlace : Place → Bool)
    (h : ∀ rule ∈ rules, AgreeOn rule.gates gates gates') :
    ∀ inner ∈ rulesWithin isPlace rules, AgreeOn inner.gates gates gates' := by
  intro inner hinner
  obtain ⟨place, tag, -, hrule⟩ := mem_rulesWithin_iff.mp hinner
  have hagree := h _ hrule
  exact hagree

section

variable (h : AgreeOn schema.gates gates gates')

include h

theorem lentRules_congr (named : List String) :
    lentRules ⟨schema, gates'⟩ named = lentRules ⟨schema, gates⟩ named := by
  rw [lentRules, lentRules]
  apply List.flatMap_congr
  intro name _
  cases htype : schema.get? name with
  | none => rfl
  | some type =>
    apply activeRules_congr
    exact fun rule hrule => h.of_flatMap (Schema.mem_rules_of_type htype hrule)

variable {site : Site} (hsite : AgreeAt gates gates' site)

include hsite

theorem rulesAt_congr : rulesAt ⟨schema, gates'⟩ site = rulesAt ⟨schema, gates⟩ site := by
  simp only [rulesAt, activeRules_congr hsite, lentRules_congr h]

theorem agreeOn_rulesAt :
    ∀ rule ∈ rulesAt ⟨schema, gates⟩ site, AgreeOn rule.gates gates gates' := by
  intro active hactive
  obtain ⟨rule, hgiven, hresolve⟩ := exists_givenAt hactive
  apply AgreeOn.mono _ (Rule.gates_subset_of_resolve hresolve)
  cases hgiven with
  | own hrule => exact hsite rule hrule
  | lent hname htype hrule => exact h.of_flatMap (Schema.mem_rules_of_type htype hrule)

omit h hsite in
theorem ruleViolations_congr {value : Value}
    (ih : ∀ inner, inner.LiesIn value → Tallies ⟨schema, gates⟩ ⟨schema, gates'⟩
      (fun site site' => site' = site ∧ AgreeAt gates gates' site)
      (fun found found' => found' = found) inner)
    {rule : Rule} (hrule : AgreeOn rule.gates gates gates') :
    ruleViolations ⟨schema, gates'⟩ value site rule =
      ruleViolations ⟨schema, gates⟩ value site rule := by
  cases rule with
  | leaf constraint tag =>
    simp only [ruleViolations, Constraint.breach?_congr hrule]
  | guarded condition inner tag => rfl
  | within place inner tag =>
    have hinner : ∀ rule ∈ [inner], AgreeOn rule.gates gates gates' :=
      List.forall_mem_singleton.mpr hrule
    simp only [ruleViolations, placeViolations]
    split
    next name _ type members _ =>
      split
      next field _ => exact ih _ (Value.member_liesIn members name) _ _ ⟨rfl, hinner⟩
      next => rfl
    next => exact ih _ (selectedItem_liesIn ..) _ _ ⟨rfl, hinner⟩
    next => rfl

end

/-- Views that agree on the gates of a schema and of a place find the same from there on. -/
theorem comparison_agreeOn (h : AgreeOn schema.gates gates gates') :
    Comparison ⟨schema, gates⟩ ⟨schema, gates'⟩
      (fun site site' => site' = site ∧ AgreeAt gates gates' site)
      (fun found found' => found' = found) where
  toComposes := composes_eq
  place := by
    rintro site _ ⟨rfl, -⟩
    exact ⟨_, _, by rw [Site.relocate, Plan.withNamed_self]⟩
  blocked := by
    rintro site _ ⟨rfl, hsite⟩ value
    rw [ownConstraints, ownConstraints, activeRules_congr hsite]
  mismatch := by
    rintro site _ ⟨rfl, hsite⟩ value
    rw [rulesAt_congr h hsite]
  rules := by
    rintro value ih site _ ⟨rfl, hsite⟩
    rw [rulesAt_congr h hsite]
    apply List.flatMap_congr
    intro rule hrule
    exact ruleViolations_congr ih (agreeOn_rulesAt h hsite rule hrule)
  struct := by
    rintro site _ ⟨rfl, hsite⟩ hdeep access name hplan
    cases hbody : schema.struct? name with
    | none => exact .none
    | some body =>
      refine .some ⟨rfl, rfl, List.forall₂_same.mpr fun field hfield => ⟨rfl, rfl, ?_⟩⟩
      exact fun rule hrule => h.of_flatMap (Schema.mem_rules_of_field hbody hfield hrule)
  element := by
    rintro site _ ⟨rfl, hsite⟩ hdeep access element semantics hplan position item
    rw [rulesAt_congr h hsite]
    exact ⟨rfl, agreeOn_rulesWithin _ (agreeOn_rulesAt h hsite)⟩
  entry := by
    rintro site _ ⟨rfl, hsite⟩ hdeep access key entry hplan name
    rw [rulesAt_congr h hsite]
    exact ⟨rfl, agreeOn_rulesWithin _ (agreeOn_rulesAt h hsite)⟩
  key := by
    rintro site _ ⟨rfl, hsite⟩ hdeep access key entry hplan name ih
    rw [rulesAt_congr h hsite, keyViolations, keyViolations]
    congr 1
    exact ih _ _ ⟨rfl, agreeOn_rulesWithin _ (agreeOn_rulesAt h hsite)⟩

end Context

end

/-- With a registry, two views that agree on all registered gates find the same in every object, on
creation and on update. -/
theorem validate_congr_registered {types : Universe} {options : Options} {registry : GateRegistry}
    (hregistry : options.gates = some registry) {name : String}
    (hknown : (compile types options).schema.contains name = true) {gates gates' : GateView}
    (hagree : ∀ gate, registry.contains gate = true → gates' gate = gates gate)
    (new : Value) (old : Option Value) :
    ∃ found, validate (compile types options).schema name gates new old = .ok found ∧
      validate (compile types options).schema name gates' new old = .ok found := by
  obtain ⟨type, -, hvalidate⟩ := Schema.validate_of_contains hknown
  have hschema : AgreeOn (compile types options).schema.gates gates gates' :=
    fun gate hgate => hagree gate (schema_registered hregistry gate hgate)
  have hroot : Context.AgreeAt gates gates' (.root type.plan old) := fun rule hrule => nomatch hrule
  have hsame : type.violations (compile types options).schema gates' new old =
      type.violations (compile types options).schema gates new old :=
    (Context.comparison_agreeOn hschema).tallies new _ _ ⟨rfl, hroot⟩
  exact ⟨_, hvalidate gates new old, by rw [hvalidate, hsame]⟩

/-- A service has a mode, of which one is not for every cluster, and a short name in some. -/
def serviceTypes : Universe := Catalog.ofList
  [⟨"Mode", ["+k8s:enum"], .alias (.scalar .string)
      [⟨"Fast", "fast", ["+k8s:ifDisabled(Fast)=+k8s:enumExclude"]⟩, ⟨"Slow", "slow", []⟩]⟩,
    ⟨"Service", [], .struct
      [⟨"Mode", none, .named "Mode", []⟩,
        ⟨"Name", none, .scalar .string, ["+k8s:ifEnabled(Short)=+k8s:maxLength=2"]⟩]⟩]

/-- The gates that exist. -/
def serviceGates : GateRegistry := Catalog.ofList ["Fast", "Short"]

def serviceOptions : Options := ⟨some "k8s", false, some serviceGates⟩

/-- Where another gate is enabled as well, a service has the same two violations. -/
theorem validate_congr_registered_service :
    serviceOptions.gates = some serviceGates ∧
      (compile serviceTypes serviceOptions).schema.contains "Service" = true ∧
      (∀ gate, serviceGates.contains gate = true →
        (gate == "Short" || gate == "Other") = (gate == "Short")) ∧
      ∃ found, found.length = 2 ∧
        validate (compile serviceTypes serviceOptions).schema "Service" (fun gate => gate == "Short")
          (.ofMembers [("mode", .string "fast"), ("name", .string "abc")]) none = .ok found ∧
        validate (compile serviceTypes serviceOptions).schema "Service"
          (fun gate => gate == "Short" || gate == "Other")
          (.ofMembers [("mode", .string "fast"), ("name", .string "abc")]) none = .ok found := by
  have hregistry : serviceOptions.gates = some serviceGates := rfl
  have hknown : (compile serviceTypes serviceOptions).schema.contains "Service" = true := by
    decide +kernel
  have hagree (gate : String) (hgate : serviceGates.contains gate = true) :
      (gate == "Short" || gate == "Other") = (gate == "Short") := by
    obtain ⟨found, hfound⟩ := Option.isSome_iff_exists.mp hgate
    have hname : found = gate := Catalog.name_of_findEntry hfound
    have hentry : found ∈ serviceGates.entries := Catalog.mem_of_get? hfound
    rcases List.mem_cons.mp (Catalog.mem_ofEntries hentry) with hfast | hshort
    · rw [← hname, hfast]
      decide
    · rw [← hname, List.mem_singleton.mp hshort]
      decide
  obtain ⟨found, hfound, hfound'⟩ := validate_congr_registered hregistry hknown
    hagree (.ofMembers [("mode", .string "fast"), ("name", .string "abc")]) none
  have hlength : (validate (compile serviceTypes serviceOptions).schema "Service"
      (fun gate => gate == "Short")
      (.ofMembers [("mode", .string "fast"), ("name", .string "abc")]) none).toOption.map
        List.length = some 2 := by
    decide +kernel
  rw [hfound] at hlength
  exact ⟨hregistry, hknown, hagree, found, Option.some.inj hlength, hfound, hfound'⟩

end TaggedSchema
