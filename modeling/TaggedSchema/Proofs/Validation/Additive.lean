import TaggedSchema.Proofs.Validation.Retagging

/-!
# Constraints that only add violations

A constraint on the value alone does not decide how a walk goes on. Where everything that the walk
looks at has the shape that is expected, one more such constraint at a field adds the violations
that it finds at this field, and all others stay in their order.
-/

namespace TaggedSchema

/-! ## Lists with violations put in -/

/-- The second list is the first one, with some violations put in that have the property. -/
inductive AddsOnly (p : Violation → Prop) : List Violation → List Violation → Prop where
  | nil : AddsOnly p [] []
  | kept (violation : Violation) {found found' : List Violation} (h : AddsOnly p found found') :
      AddsOnly p (violation :: found) (violation :: found')
  | added {violation : Violation} {found found' : List Violation} (hadded : p violation)
      (h : AddsOnly p found found') : AddsOnly p found (violation :: found')

namespace AddsOnly

variable {p : Violation → Prop} {found found' others others' : List Violation}

theorem refl (found : List Violation) : AddsOnly p found found := by
  induction found with
  | nil => exact .nil
  | cons violation found ih => exact .kept violation ih

theorem append (h : AddsOnly p found found') (hothers : AddsOnly p others others') :
    AddsOnly p (found ++ others) (found' ++ others') := by
  induction h with
  | nil => exact hothers
  | kept violation h ih => exact .kept violation ih
  | added hadded h ih => exact .added hadded ih

theorem composes : Context.Composes (AddsOnly p) where
  same := refl
  append := append

/-- No violation is lost, and all stay in their order. -/
theorem sublist (h : AddsOnly p found found') : found.Sublist found' := by
  induction h with
  | nil => exact .slnil
  | kept violation h ih => exact ih.cons_cons violation
  | added hadded h ih => exact ih.cons _

end AddsOnly

/-! ## Values that a walk looks at -/

namespace Context

variable (c : Context)

/-- A walk from the first site gets to the second one. -/
inductive Reaches : Value → Site → Value → Site → Prop where
  | here (value : Value) (site : Site) : Reaches value site value site
  | step {value inner last : Value} {site innerSite lastSite : Site}
      (hlooks : c.LooksAt value site) (hfits : site.plan.fits value = true)
      (hleads : c.LeadsTo value site inner innerSite)
      (hreaches : Reaches inner innerSite last lastSite) : Reaches value site last lastSite

/-- All values that a walk looks at are of the shapes that their places expect. -/
def FitsThroughout (value : Value) (site : Site) : Prop :=
  ∀ last lastSite, c.Reaches value site last lastSite → c.LooksAt last lastSite →
    lastSite.plan.fits last = true

variable {c} {value inner : Value} {site innerSite : Site}

theorem FitsThroughout.fits (h : c.FitsThroughout value site) (hlooks : c.LooksAt value site) :
    site.plan.fits value = true :=
  h value site (.here value site) hlooks

theorem FitsThroughout.next (h : c.FitsThroughout value site) (hlooks : c.LooksAt value site)
    (hfits : site.plan.fits value = true) (hleads : c.LeadsTo value site inner innerSite) :
    c.FitsThroughout inner innerSite :=
  fun last lastSite hreaches => h last lastSite (.step hlooks hfits hleads hreaches)

/-- What is found from a place on that a walk gets to belongs to what the walk finds. -/
theorem Reaches.subset {last : Value} {lastSite : Site} {violation : Violation}
    (h : c.Reaches value site last lastSite) (hfound : violation ∈ c.walk last lastSite) :
    violation ∈ c.walk value site := by
  induction h with
  | here => exact hfound
  | step hlooks hfits hleads hreaches ih =>
    rw [(Course.checked hlooks.changed hlooks.clear hlooks.present hfits).walk_eq]
    exact hleads.subset (ih hfound)

/-- A value of another shape is invalid. So where nothing is, all that is looked at fits. -/
theorem fitsThroughout_of_kind
    (h : ∀ violation ∈ c.walk value site, violation.kind ≠ .invalid) :
    c.FitsThroughout value site := by
  intro last lastSite hreaches hlooks
  by_contra hunfit
  have hmismatch := (Course.unfit hlooks.changed hlooks.clear hlooks.present
    (eq_false_of_ne_true hunfit)).walk_eq
  apply h _ (hreaches.subset (hmismatch ▸ List.mem_singleton_self _))
  rw [Violation.nativeIf_kind]
  rfl

end Context

/-! ## One more constraint -/

namespace RuleSwap

variable {s : RuleSwap} {constraint : Constraint} {tag : String}

/-- A constraint that neither stops a walk nor shapes anything only adds what it finds. -/
theorem compares_additive (hpasses : constraint.isShortCircuit = false) (hnone : s.swapped = [])
    (hadded : s.swapped' = [.leaf constraint tag]) :
    s.Compares s.before.FitsThroughout
      (AddsOnly fun violation => violation.origin = constraint.origin ∧
        ∃ outer : Path, violation.path = outer.field s.field.jsonName) where
  toComposes := AddsOnly.composes
  next hgood hlooks hfits hleads := hgood.next hlooks hfits hleads
  blocked {value outer} _ := by
    have hsame : (s.siteIn outer).blocked? value
          ((s.front ++ s.swapped' ++ s.back).filterMap Rule.constraint?) =
        (s.siteIn outer).blocked? value
          ((s.front ++ s.swapped ++ s.back).filterMap Rule.constraint?) := by
      apply Site.blocked?_congr
      simp [hnone, hadded, List.filterMap_append, Rule.constraint?, hpasses]
    rw [hsame]
    cases (s.siteIn outer).blocked? value
        ((s.front ++ s.swapped ++ s.back).filterMap Rule.constraint?) with
    | none => exact .none
    | some violation => exact .some (.refl _)
  mismatch hgood hlooks hunfit _ := by
    rw [hgood.fits hlooks] at hunfit
    cases hunfit
  found {value outer} _ _ _ := by
    rw [hnone, hadded, List.flatMap_nil, List.flatMap_singleton, Context.ruleViolations]
    cases hbreach : constraint.breach? s.after.gates (s.siteIn' outer).path value with
    | none => exact .nil
    | some violation =>
      refine .added ⟨?_, outer.path, ?_⟩ .nil
      · rw [Violation.nativeIf_origin, Constraint.origin_of_breach? hbreach]
      · rw [Violation.nativeIf_path, (Constraint.isAt_of_breach? hbreach).path]
        rfl

end RuleSwap

/-! ## Tags of such constraints -/

/-- The origin of the violations of the rule that the tag stands for: its name, and for a format the
word behind it. -/
def Tag.origin (tag : Tag) : String :=
  if tag.name = "format" then "format=" ++ (tag.value?.bind Literal.text?).getD "" else tag.name

namespace Compiler

variable {c : Compiler} {tag : Tag} {scope : Scope} {target : TypeRef} {around : Surroundings}

theorem choice_eq_ok {α : Type} {words : WordList α} {choice : α}
    (h : tag.choice words = .ok choice) :
    tag.value?.bind Literal.text? = some (words.name choice) := by
  simp only [Tag.choice, Tag.wordValue, bind_succeeds_iff] at h
  obtain ⟨word, hword, h⟩ := h
  split at hword
  next text htext =>
    cases hword
    split at h
    next found hfound =>
      cases h
      rw [htext, beq_iff_eq.mp (List.find?_some hfound :)]
    next => cases h
  next => cases hword

/-- These tags are built into constraints on the value alone. -/
theorem build_additive {built : Option Rule}
    (hname : tag.name ∈ ["minimum", "maxLength", "maxItems", "maxProperties", "format", "neq"])
    (h : c.build tag scope target around = .ok built) :
    ∃ constraint, built = some (.leaf constraint tag.raw) ∧ constraint.origin = tag.origin ∧
      constraint.isShortCircuit = false ∧ constraint.isSettled = false := by
  obtain ⟨name, hwritten, hadditive⟩ : ∃ name : SimpleTag, tag.name = name.name ∧
      name ∈ [SimpleTag.minimum, .maxLength, .maxItems, .maxProperties, .format, .neq] := by
    simp only [List.mem_cons, List.not_mem_nil, or_false] at hname
    rcases hname with h | h | h | h | h | h
    · exact ⟨.minimum, h, by decide⟩
    · exact ⟨.maxLength, h, by decide⟩
    · exact ⟨.maxItems, h, by decide⟩
    · exact ⟨.maxProperties, h, by decide⟩
    · exact ⟨.format, h, by decide⟩
    · exact ⟨.neq, h, by decide⟩
  have hdirective : Directive.ofName? tag.name = some (.simple name) := by
    rw [hwritten]
    cases name <;> rfl
  obtain ⟨constraint, hconstraint, rfl⟩ := build_simple hdirective h
  have htag := constraint_tag hconstraint
  refine ⟨constraint, rfl, ?_⟩
  cases constraint <;> subst htag
  case format kind =>
    change c.constraint tag target around .format = .ok (.format kind) at hconstraint
    simp only [Compiler.constraint, bind_succeeds_iff, pure_succeeds_iff,
      Constraint.format.injEq] at hconstraint
    obtain ⟨-, -, _, hchoice, rfl⟩ := hconstraint
    refine ⟨?_, rfl, rfl⟩
    have hformat : tag.name = "format" := hwritten
    rw [Tag.origin, if_pos hformat, choice_eq_ok hchoice]
    rfl
  case minimum | maxLength | maxItems | maxProperties | differs =>
    refine ⟨?_, rfl, rfl⟩
    rw [Tag.origin, hwritten]
    rfl
  all_goals simp [Constraint.tag] at hadditive

end Compiler

/-- A field gets one more tag, at whatever place among its tags, for a limit, a format or a value that
is not allowed. Where all that is looked at has the shape that is expected, the violations are found
that have been found before, in the same order. All others are of this tag and at this field. -/
theorem validate_additive {types : Universe} {options : Options} (a : FieldLines types)
    (hnone : a.lines = []) {lines' : List String} {tag : Tag}
    (hok : (compile types options).isOk = true)
    (hok' : (compile (a.replaced lines') options).isOk = true)
    (hlines' : Compiler.compiledTags ⟨types, options⟩ .field lines' = [tag])
    (hname : tag.name ∈ ["minimum", "maxLength", "maxItems", "maxProperties", "format", "neq"])
    {name : String} {type : CompiledType}
    (htype : (compile types options).schema.get? name = some type) (gates : GateView) {new : Value}
    {old : Option Value}
    (hfits : Context.FitsThroughout ⟨(compile types options).schema, gates⟩ new
      (.root type.plan old)) :
    ∃ found found',
      validate (compile types options).schema name gates new old = .ok found ∧
      validate (compile (a.replaced lines') options).schema name gates new old = .ok found' ∧
      found.Sublist found' ∧ AddsOnly (fun violation => violation.origin = tag.origin ∧
        ∃ outer : Path, violation.path = outer.field a.field.jsonName) found found' := by
  obtain ⟨rules, rules', hrules, hrules', hswap⟩ := a.exists_ruleSwap hok hok' gates
  rw [hnone] at hrules
  obtain rfl := Compiler.buildsRules_nil_iff.mp hrules.compiledTags
  have hcompiles : Compiler.compiles ⟨types, options⟩ tag = true :=
    Compiler.compiles_of_mem_compiledTags (hlines' ▸ List.mem_singleton_self tag)
  obtain ⟨built, hbuild, rfl⟩ :=
    (Compiler.buildsRules_singleton_iff hcompiles).mp (hlines' ▸ hrules'.compiledTags)
  obtain ⟨constraint, rfl, horigin, hpasses, hsettled⟩ := Compiler.build_additive hname hbuild
  have hplain : (some (Rule.leaf constraint tag.raw)).toList.all Rule.isPlain = true := by
    simp [Rule.isPlain, Rule.isComposed, Rule.shapes, hsettled]
  obtain ⟨s, hschema, hschema', rfl, hjson, hswapped, hswapped'⟩ := hswap rfl hplain
  rw [← hschema] at htype
  rw [← hschema] at hfits
  obtain ⟨found, found', hfound, hfound', hadds⟩ :=
    (RuleSwap.compares_additive hpasses hswapped hswapped').validate htype hfits
  rw [← hschema, ← hschema', ← horigin, ← hjson]
  exact ⟨found, found', hfound, hfound', hadds.sublist, hadds⟩

/-- A sailor keeps the nickname. -/
def sailorNick : FieldDef := ⟨"Nick", none, .scalar .string, ["+k8s:optional", "+k8s:immutable"]⟩

def sailorType : TypeDef :=
  ⟨"Sailor", [], .struct [⟨"Name", none, .scalar .string, ["+k8s:required"]⟩, sailorNick]⟩

/-- The crew of a ship by ranks. -/
def crewTypes : Universe := Catalog.ofList
  [⟨"Crew", [], .alias (.map (.scalar .string) (.named "Sailor")) []⟩, sailorType]

/-- The place between the two lines of the nickname. -/
def sailorLines : FieldLines crewTypes where
  type := sailorType
  position := 1
  field := sailorNick
  front := ["+k8s:optional"]
  lines := []
  back := ["+k8s:immutable"]
  type_known := by rfl
  field_position := rfl
  field_tags := rfl

/-- A limit to the size of the nickname. -/
def nickLimit : Tag := .valued ⟨some "k8s", "maxLength", .field, [], "+k8s:maxLength=4"⟩ (.int 4)

/-- A mate and a cook, who has no name. -/
def crew : Value :=
  .ofMembers [("cook", .ofMembers [("nick", .string "Sparky")]),
    ("mate", .ofMembers [("name", .string "Ann"), ("nick", .string "Al")])]

/-- The nickname of the cook is too long. -/
theorem validate_additive_crew :
    sailorLines.lines = [] ∧ (compile crewTypes .default).isOk = true ∧
      (compile (sailorLines.replaced ["+k8s:maxLength=4"]) .default).isOk = true ∧
      Compiler.compiledTags ⟨crewTypes, .default⟩ .field ["+k8s:maxLength=4"] = [nickLimit] ∧
      nickLimit.name ∈ ["minimum", "maxLength", "maxItems", "maxProperties", "format", "neq"] ∧
      ∃ type, (compile crewTypes .default).schema.get? "Crew" = some type ∧
        Context.FitsThroughout ⟨(compile crewTypes .default).schema, fun _ => true⟩ crew
          (.root type.plan none) ∧
        ∃ found found',
          validate (compile crewTypes .default).schema "Crew" (fun _ => true) crew none =
            .ok found ∧
          validate (compile (sailorLines.replaced ["+k8s:maxLength=4"]) .default).schema "Crew"
            (fun _ => true) crew none = .ok found' ∧
          found.Sublist found' ∧ AddsOnly (fun violation => violation.origin = "maxLength" ∧
            ∃ outer : Path, violation.path = outer.field "nick") found found' ∧
          found.map Violation.toText = ["[cook].name: Required value"] ∧
          found'.map Violation.toText = ["[cook].name: Required value",
            "[cook].nick: Too long: 6: may not be more than 4 bytes"] := by
  have hok : (compile crewTypes .default).isOk = true := by
    decide +kernel
  have hok' : (compile (sailorLines.replaced ["+k8s:maxLength=4"]) .default).isOk = true := by
    decide +kernel
  have htags : Compiler.compiledTags ⟨crewTypes, .default⟩ .field ["+k8s:maxLength=4"] =
      [nickLimit] := by
    decide +kernel
  have hname : nickLimit.name ∈
      ["minimum", "maxLength", "maxItems", "maxProperties", "format", "neq"] := by
    decide
  have hroot : (compile crewTypes .default).schema.contains "Crew" = true := by
    decide +kernel
  have htexts : (validate (compile crewTypes .default).schema "Crew" (fun _ => true) crew
      none).toOption.map (List.map Violation.toText) = some ["[cook].name: Required value"] := by
    decide +kernel
  have hkinds : (validate (compile crewTypes .default).schema "Crew" (fun _ => true) crew
      none).toOption.map (List.map Violation.kind) = some [.required] := by
    decide +kernel
  have htexts' : (validate (compile (sailorLines.replaced ["+k8s:maxLength=4"]) .default).schema
      "Crew" (fun _ => true) crew none).toOption.map (List.map Violation.toText) =
        some ["[cook].name: Required value",
          "[cook].nick: Too long: 6: may not be more than 4 bytes"] := by
    decide +kernel
  obtain ⟨type, htype, hvalidate⟩ := Schema.validate_of_contains hroot
  have hfits : Context.FitsThroughout ⟨(compile crewTypes .default).schema, fun _ => true⟩ crew
      (.root type.plan none) := by
    apply Context.fitsThroughout_of_kind
    intro violation hviolation
    rw [hvalidate] at hkinds
    have hkind : violation.kind ∈ [ViolationKind.required] :=
      Option.some.inj hkinds ▸ List.mem_map_of_mem hviolation
    rw [List.mem_singleton.mp hkind]
    decide
  obtain ⟨found, found', hfound, hfound', hsublist, hadds⟩ :=
    validate_additive sailorLines rfl hok hok' htags hname htype (fun _ => true) hfits
  rw [hfound] at htexts
  rw [hfound'] at htexts'
  exact ⟨rfl, hok, hok', htags, hname, type, htype, hfits, found, found', hfound, hfound', hsublist,
    hadds, Option.some.inj htexts, Option.some.inj htexts'⟩

end TaggedSchema
