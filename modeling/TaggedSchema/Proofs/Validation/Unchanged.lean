import TaggedSchema.Proofs.Validation.Findings
import TaggedSchema.Proofs.Value.Canonical
import TaggedSchema.Schema.Compile

/-!
# Unchanged values

On update nothing is reported at a value that is equal to its earlier version, nor inside it, but by
the unions of a struct around it. A walk gets to the value along its path only, and on this way it
never loses sight of the earlier version.
-/

namespace TaggedSchema

/-- The value to which fields and keys lead from a value. A missing field is null, a missing key
leads nowhere. -/
def Value.descend? (value : Value) : List Segment → Option Value
  | [] => some value
  | .field name :: rest => (value.member name).descend? rest
  | .index _ :: _ => none
  | .key name :: rest => (value.member? name).bind fun inner => inner.descend? rest

/-- The path leads to equal values in both versions, and before its end to no null in the earlier
one. -/
structure IsUnchangedAt (path : List Segment) (new old : Value) : Prop where
  present : ∀ outer, outer <+: path → outer ≠ path → old.descend? outer ≠ some .null
  same : ∃ value earlier, new.descend? path = some value ∧ old.descend? path = some earlier ∧
    value == earlier

namespace IsUnchangedAt

variable {new old : Value} {path : List Segment} {name : String}

theorem isNull_eq_false {segment : Segment} (h : IsUnchangedAt (segment :: path) new old) :
    old.isNull = false := by
  have hpresent := h.present [] List.nil_prefix (List.cons_ne_nil segment path).symm
  cases old with
  | null => exact absurd rfl hpresent
  | _ => rfl

theorem field (h : IsUnchangedAt (.field name :: path) new old) :
    IsUnchangedAt path (new.member name) (old.member name) where
  present outer houter hne := h.present (.field name :: outer)
    ((List.prefix_cons_inj _).mpr houter) fun heq => hne (List.cons.inj heq).2
  same := h.same

theorem key (h : IsUnchangedAt (.key name :: path) new old) :
    ∃ value earlier, new.member? name = some value ∧ old.member? name = some earlier ∧
      IsUnchangedAt path value earlier := by
  obtain ⟨value, earlier, hvalue, hearlier, hsame⟩ := h.same
  obtain ⟨inner, hinner, hvalue⟩ := Option.bind_eq_some_iff.mp hvalue
  obtain ⟨innerOld, hinnerOld, hearlier⟩ := Option.bind_eq_some_iff.mp hearlier
  refine ⟨inner, innerOld, hinner, hinnerOld, ?_, value, earlier, hvalue, hearlier, hsame⟩
  intro outer houter hne hnull
  refine h.present (.key name :: outer) ((List.prefix_cons_inj _).mpr houter)
    (fun heq => hne (List.cons.inj heq).2) ?_
  rw [Value.descend?, hinnerOld]
  exact hnull

/-- No such path goes on to an element of a list. -/
theorem not_element {items : List Value} {segment : Segment} {list element : Path}
    {found : List Segment} (h : IsUnchangedAt (segment :: path) (.array items) old)
    (hunder : list.segments ++ segment :: path <+: found)
    (hextend : ∃ segment, element = list.extend segment ∧ ∀ name, segment ≠ .field name) :
    ¬ element.segments <+: found := by
  intro helement
  obtain ⟨other, rfl, hother⟩ := hextend
  have hsame : segment = other := segment_unique hunder helement
  subst hsame
  cases segment with
  | field name => exact hother name rfl
  | index position =>
    obtain ⟨value, earlier, hvalue, -⟩ := h.same
    cases hvalue
  | key name =>
    obtain ⟨value, earlier, hvalue, -⟩ := h.key
    cases hvalue

end IsUnchangedAt

namespace Context

variable {c : Context} {value old : Value} {site : Site} {violation : Violation}
  {segment : Segment} {path : List Segment}

/-- What is found at a value itself lies on the way to an unchanged value only if a union of the
struct finds it. -/
theorem FoundHere.origin_of_isUnchangedAt (h : c.FoundHere value site violation)
    (hunchanged : IsUnchangedAt (segment :: path) value old)
    (hunder : site.path.segments ++ segment :: path <+: violation.path.segments) :
    violation.origin = "union" := by
  -- A path that ends at the struct is too short.
  have helsewhere (hpath : violation.path = site.path) : violation.origin = "union" := by
    have hlength := hunder.length_le
    rw [hpath, List.length_append, List.length_cons] at hlength
    omega
  cases h with
  | @breach constraint tag found hrule hbreach heq =>
    apply helsewhere
    rw [heq, Violation.nativeIf_path, (Constraint.isAt_of_breach? hbreach).path]
  | @repeated access element semantics items found hdeep hplan hitems hunique hfound heq =>
    subst hitems
    obtain ⟨position, item, hat⟩ := ListSemantics.mem_duplicatesAfter hfound
    rw [heq, Violation.nativeIf_path, hat.path] at hunder
    have helement := semantics.elementPath_extend site.path position item
    exact absurd List.prefix_rfl (hunchanged.not_element hunder helement)
  | @union access type body found hdeep hplan hobject hbody hfound heq =>
    rcases CompiledStruct.mem_unionViolations hfound with hat | ⟨horigin, -⟩
    · apply helsewhere
      rw [heq, Violation.nativeIf_path, hat.path]
    · rw [heq, Violation.nativeIf_origin, horigin]

/-- The walk goes on along the path to an unchanged value with the earlier version at its side. -/
theorem LeadsTo.old_of_isUnchangedAt {inner : Value} {innerSite : Site}
    (hleads : c.LeadsTo value site inner innerSite) (hcanonical : value.Canonical)
    (hold : site.old = some old) (hunchanged : IsUnchangedAt (segment :: path) value old)
    (hunder : site.path.segments ++ segment :: path <+: violation.path.segments)
    (hinner : innerSite.path.segments <+: violation.path.segments) :
    innerSite.path.segments = site.path.segments ++ [segment] ∧ inner.Canonical ∧
      ∃ earlier, innerSite.old = some earlier ∧ IsUnchangedAt path inner earlier := by
  have hexisting : site.existing = some old := by
    rw [Site.existing, hold, Option.filter_some, hunchanged.isNull_eq_false]
    rfl
  cases hleads with
  | @subfield access type name tag body field rule hplan hobject hbody hfield hrule =>
    have hname : field.jsonName = name := CompiledStruct.jsonName_of_field? hfield
    subst hname
    cases segment_unique hunder hinner
    refine ⟨rfl, hcanonical.member _, old.member field.jsonName, ?_, hunchanged.field⟩
    simp [Site.field, hexisting]
  | @field access type body field hdeep hplan hobject hbody hfield =>
    cases segment_unique hunder hinner
    refine ⟨rfl, hcanonical.member _, old.member field.jsonName, ?_, hunchanged.field⟩
    simp [Site.field, hexisting]
  | @item access element semantics items selector rule tag hplan hitems hrule =>
    subst hitems
    have helement := selectedItem_extend site.path semantics selector items
    exact absurd hinner (hunchanged.not_element hunder helement)
  | @element access element semantics items item position hdeep hplan hitems hitem =>
    subst hitems
    have helement := semantics.elementPath_extend site.path position inner
    exact absurd hinner (hunchanged.not_element hunder helement)
  | @entry access key entry members name inner hdeep hplan hmembers hentry =>
    subst hmembers
    cases segment_unique hunder hinner
    obtain ⟨value, earlier, hvalue, hearlier, hrest⟩ := hunchanged.key
    rw [hcanonical.member?_of_mem hentry] at hvalue
    cases hvalue
    refine ⟨rfl, hcanonical.of_mem hentry, earlier, ?_, hrest⟩
    simp [Site.entry, Site.inner, hold, hearlier]
  | @key access key entry members name inner hdeep hplan hmembers hentry hnew hchecked =>
    -- Only new keys are looked at, and this one has been there before.
    cases segment_unique hunder hinner
    obtain ⟨value, earlier, hvalue, hearlier, hrest⟩ := hunchanged.key
    rw [hold, Option.bind_some, hearlier] at hnew
    cases hnew

/-- The induction is on the value; each step inwards takes one segment off the path. -/
theorem origin_of_mem_walk (hcanonical : value.Canonical) (hold : site.old = some old)
    (hunchanged : IsUnchangedAt path value old) (h : violation ∈ c.walk value site)
    (hunder : site.path.segments ++ path <+: violation.path.segments) :
    violation.origin = "union" := by
  induction value using Value.liesIn_induct generalizing site old path with
  | step value ih =>
    obtain ⟨hchanged, hfound⟩ := mem_walk h
    cases path with
    | nil =>
      obtain ⟨value', earlier, ⟨⟩, ⟨⟩, hsame⟩ := hunchanged.same
      rw [Site.isUnchanged, hold, Option.any_some, hsame] at hchanged
      cases hchanged
    | cons segment path =>
      rcases hfound with hat | hhere | ⟨inner, innerSite, hleads, hinner⟩
      · have hlength := hunder.length_le
        rw [hat.path, List.length_append, List.length_cons] at hlength
        omega
      · exact hhere.origin_of_isUnchangedAt hunchanged hunder
      · obtain ⟨hpath, hcanonical, earlier, hold, hunchanged⟩ :=
          hleads.old_of_isUnchangedAt hcanonical hold hunchanged hunder (walk_under hinner)
        rw [List.append_cons, ← hpath] at hunder
        exact ih inner hleads.liesIn hcanonical hold hunchanged hinner hunder

end Context

/-- Where fields and keys lead to a value that is equal to its earlier version, only unions report
anything on update, at the value or inside it. -/
theorem validate_update_under_unchanged {schema : Schema} {name : String}
    (hknown : schema.contains name = true) (gates : GateView) {new old : Value}
    (hcanonical : new.Canonical) {path : Path}
    (hunchanged : IsUnchangedAt path.segments new old) :
    ∃ violations, validate schema name gates new (some old) = .ok violations ∧
      ∀ violation ∈ violations, violation.path.startsWith path = true →
        violation.origin = "union" := by
  obtain ⟨type, -, hvalidate⟩ := Schema.validate_of_contains hknown
  refine ⟨_, hvalidate gates new (some old), ?_⟩
  intro violation hviolation hunder
  exact Context.origin_of_mem_walk hcanonical rfl hunchanged hviolation
    (Path.startsWith_iff.mp hunder)

/-- A note has a title or a body, as its kind says. -/
def noteTypes : Universe := Catalog.ofList
  [⟨"Note", [], .struct
    [⟨"Kind", none, .scalar .string, ["+k8s:unionDiscriminator"]⟩,
      ⟨"Title", none, .scalar .string, ["+k8s:maxLength=2", "+k8s:unionMember"]⟩,
      ⟨"Body", none, .scalar .string, ["+k8s:unionMember"]⟩]⟩]

/-- A note that should not have a title, let alone such a long one. -/
def titledNote (body : String) : Value :=
  .ofMembers [("kind", .string "Body"), ("title", .string "long"), ("body", .string body)]

/-- Another body is no reason to look at the title, but the union does. -/
theorem validate_update_under_unchanged_title :
    (compile noteTypes .default).schema.contains "Note" = true ∧
      (titledNote "new").Canonical ∧
      IsUnchangedAt [.field "title"] (titledNote "new") (titledNote "old") ∧
      ∃ violations, validate (compile noteTypes .default).schema "Note" (fun _ => false)
          (titledNote "new") (some (titledNote "old")) = .ok violations ∧
        ∀ violation ∈ violations, violation.path.startsWith (Path.root.field "title") = true →
          violation.origin = "union" := by
  have hknown : (compile noteTypes .default).schema.contains "Note" = true := by
    decide +kernel
  have hcanonical : (titledNote "new").Canonical := by
    apply Value.canonical_ofMembers
    simp [Value.Canonical]
  have hunchanged : IsUnchangedAt [.field "title"] (titledNote "new") (titledNote "old") := by
    refine ⟨?_, .string "long", .string "long", rfl, rfl, by decide⟩
    intro outer houter hne
    rcases List.prefix_cons_iff.mp houter with rfl | ⟨rest, rfl, hrest⟩
    · intro hnull
      cases hnull
    · exact absurd (congrArg _ (List.prefix_nil.mp hrest)) hne
  exact ⟨hknown, hcanonical, hunchanged,
    validate_update_under_unchanged hknown _ hcanonical hunchanged⟩

end TaggedSchema
