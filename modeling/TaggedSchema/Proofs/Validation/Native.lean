import TaggedSchema.Proofs.Schema.Unions
import TaggedSchema.Proofs.Validation.Findings

/-!
# Native violations

A violation is marked as native exactly when its path leads through a field that only rules
validate. The path can be followed through the plans of the schema, whatever it is that reports
there: a rule of the type, of the field or of an item, a key of a map, or a union.
-/

namespace TaggedSchema

namespace Schema

/-- The plan of the values to which a segment leads, and whether it leads there through a native
field. -/
def step? (schema : Schema) : Plan → Segment → Option (Plan × Bool)
  | .struct _ type, .field name =>
    ((schema.struct? type).bind fun body => body.field? name).map fun field =>
      (field.plan, field.native)
  | .list _ element _, .index _ => some (element, false)
  | .list _ element _, .key _ => some (element, false)
  | .map _ _ value, .key _ => some (value, false)
  | _, _ => none

/-- Whether a path from a value of this plan on leads through a native field. A path that the plan
does not have leads nowhere. -/
def passesNative? (schema : Schema) : Plan → List Segment → Option Bool
  | _, [] => some false
  | plan, segment :: rest =>
    (schema.step? plan segment).bind fun (inner, native) =>
      (schema.passesNative? inner rest).map fun further => native || further

/-- The fields of each struct have different names in instances. -/
def NamesDiffer (schema : Schema) : Prop :=
  ∀ name body, schema.struct? name = some body →
    (body.fields.map CompiledField.jsonName).Nodup

/-- The unions of each struct are formed by its fields. -/
def HostsUnions (schema : Schema) : Prop :=
  ∀ name body, schema.struct? name = some body → ∀ group ∈ body.unions,
    group.HostedBy body.fields

variable {schema : Schema} {access : Access} {name : String} {body : CompiledStruct}
variable {field : CompiledField} {plan : Plan}

theorem passesNative?_cons {inner : Plan} {segment : Segment} {rest : List Segment}
    {native further : Bool} (hstep : schema.step? plan segment = some (inner, native))
    (hrest : schema.passesNative? inner rest = some further) :
    schema.passesNative? plan (segment :: rest) = some (native || further) := by
  simp only [passesNative?, hstep, Option.bind_some, hrest, Option.map_some]

theorem passesNative?_singleton {inner : Plan} {segment : Segment} {native : Bool}
    (hstep : schema.step? plan segment = some (inner, native)) :
    schema.passesNative? plan [segment] = some native := by
  rw [passesNative?_cons hstep rfl, Bool.or_false]

/-- Elements are addressed by keys and positions. -/
theorem step?_list {element : Plan} {semantics : ListSemantics} {segment : Segment}
    (h : ∀ name, segment ≠ .field name) :
    schema.step? (.list access element semantics) segment = some (element, false) := by
  cases segment with
  | field name => exact absurd rfl (h name)
  | index position => rfl
  | key text => rfl

theorem step?_field (hbody : schema.struct? name = some body) {jsonName : String}
    (hfield : body.field? jsonName = some field) :
    schema.step? (.struct access name) (.field jsonName) = some (field.plan, field.native) := by
  rw [step?, hbody, Option.bind_some, hfield, Option.map_some]

end Schema

/-- Each field is the first of its name. -/
theorem CompiledStruct.field?_of_mem {body : CompiledStruct}
    (hnames : (body.fields.map CompiledField.jsonName).Nodup) {field : CompiledField}
    (hfield : field ∈ body.fields) : body.field? field.jsonName = some field := by
  rw [field?]
  generalize body.fields = fields at hnames hfield
  induction fields with
  | nil => cases hfield
  | cons first fields ih =>
    rw [List.map_cons, List.nodup_cons] at hnames
    obtain ⟨hfirst, hrest⟩ := hnames
    rw [List.find?_cons]
    rcases List.mem_cons.mp hfield with rfl | hfield
    · rw [beq_self_eq_true]
    · have hne : first.jsonName ≠ field.jsonName :=
        fun heq => hfirst (heq ▸ List.mem_map_of_mem hfield)
      rw [beq_eq_false_iff_ne.mpr hne]
      exact ih hrest hfield

section

variable {schema : Schema} {name jsonName : String} {body : CompiledStruct} {access : Access}

theorem Hosts.step? (hnames : schema.NamesDiffer) (hbody : schema.struct? name = some body)
    {selector : Option ItemSelector} (h : Hosts body.fields jsonName selector) :
    ∃ plan, schema.step? (.struct access name) (.field jsonName) = some (plan, false) ∧
      (selector.isSome = true → ∃ access element semantics,
        plan = .list access element semantics) := by
  obtain ⟨field, hfield, rfl, hnative, hlist⟩ := h
  have hget := CompiledStruct.field?_of_mem (hnames name body hbody) hfield
  exact ⟨field.plan, hnative ▸ Schema.step?_field hbody hget, hlist⟩

/-- No native field is on the way to a place at which a union reports. -/
theorem UnionGroup.ReportsAt.passesNative? (hnames : schema.NamesDiffer)
    (hbody : schema.struct? name = some body) {group : UnionGroup}
    (hhosted : group.HostedBy body.fields) {struct place : Path}
    (h : group.ReportsAt struct place) :
    ∃ rest, place.segments = struct.segments ++ rest ∧
      schema.passesNative? (.struct access name) rest = some false := by
  cases h with
  | struct => exact ⟨[], (List.append_nil _).symm, rfl⟩
  | discriminator hjsonName =>
    obtain ⟨plan, hstep, -⟩ := (hhosted.discriminator _ hjsonName).step? hnames hbody
    exact ⟨_, rfl, Schema.passesNative?_singleton hstep⟩
  | @member member hmember =>
    obtain ⟨plan, hstep, hlist⟩ := (hhosted.members member hmember).step? hnames hbody
    rw [UnionMember.path]
    cases hselector : member.selector with
    | none => exact ⟨_, rfl, Schema.passesNative?_singleton hstep⟩
    | some selector =>
      rw [hselector] at hlist
      obtain ⟨listAccess, element, semantics, rfl⟩ := hlist rfl
      have hitem : schema.step? (.list listAccess element semantics) (.key selector.identity) =
          some (element, false) := rfl
      refine ⟨_, List.append_assoc .., ?_⟩
      exact Schema.passesNative?_cons hstep (Schema.passesNative?_singleton hitem)

end

namespace Context

/-- The rest of the violation's path leads on from the site, and the mark says whether the site or
the rest is native. -/
def MarkedFrom (c : Context) (site : Site) (violation : Violation) : Prop :=
  ∃ rest further, violation.path.segments = site.path.segments ++ rest ∧
    c.schema.passesNative? site.plan rest = some further ∧
    violation.native = (site.native || further)

variable {c : Context} {value inner : Value} {site innerSite : Site} {violation : Violation}

theorem markedFrom_of_isAt (h : violation.IsAt site.path site.native) :
    c.MarkedFrom site violation :=
  ⟨[], false, by rw [h.path, List.append_nil], rfl, by rw [h.native, Bool.or_false]⟩

/-- What is found one step inwards is found from here. -/
theorem MarkedFrom.step {segment : Segment} {native : Bool}
    (h : c.MarkedFrom innerSite violation) (hpath : innerSite.path = site.path.extend segment)
    (hstep : c.schema.step? site.plan segment = some (innerSite.plan, native))
    (hnative : innerSite.native = (site.native || native)) : c.MarkedFrom site violation := by
  obtain ⟨rest, further, hrest, hpasses, hmark⟩ := h
  refine ⟨segment :: rest, native || further, ?_, Schema.passesNative?_cons hstep hpasses, ?_⟩
  · rw [hrest, hpath, Path.extend, List.append_assoc]
    rfl
  · rw [hmark, hnative, Bool.or_assoc]

/-- At a scalar a violation is found only where the walk is. -/
theorem isAt_of_mem_walk_scalar (hscalar : value.isScalar = true)
    (h : violation ∈ c.walk value site) : violation.IsAt site.path site.native := by
  rcases mem_walk h with ⟨-, hat | hhere | ⟨inner, innerSite, hleads, -⟩⟩
  · exact hat
  · cases hhere with
    | breach hrule hbreach heq =>
      rw [heq]
      exact (Constraint.isAt_of_breach? hbreach).nativeIf _
    | repeated hdeep hplan hitems =>
      rw [hitems] at hscalar
      cases hscalar
    | union hdeep hplan hobject =>
      obtain ⟨members, rfl⟩ := isObject_iff.mp hobject
      cases hscalar
  · cases hleads.liesIn <;> cases hscalar

section

variable (hnames : c.schema.NamesDiffer)

include hnames

theorem FoundHere.markedFrom (hunions : c.schema.HostsUnions)
    (h : c.FoundHere value site violation) : c.MarkedFrom site violation := by
  cases h with
  | breach hrule hbreach heq =>
    rw [heq]
    exact markedFrom_of_isAt ((Constraint.isAt_of_breach? hbreach).nativeIf _)
  | @repeated access element semantics items found hdeep hplan hitems hunique hfound heq =>
    obtain ⟨position, item, hat⟩ := ListSemantics.mem_duplicatesAfter hfound
    obtain ⟨segment, hextend, hsegment⟩ := semantics.elementPath_extend site.path position item
    have hmark := hat.nativeIf site.native
    refine ⟨[segment], false, ?_, ?_, ?_⟩
    · rw [heq, hmark.path, hextend]
      rfl
    · rw [hplan]
      exact Schema.passesNative?_singleton (Schema.step?_list hsegment)
    · rw [heq, hmark.native, Bool.or_false]
  | @union access type body found hdeep hplan hobject hbody hfound heq =>
    rcases CompiledStruct.mem_unionViolations hfound with
      hat | ⟨-, group, hgroup, place, hplace, hat⟩
    · rw [heq]
      exact markedFrom_of_isAt (hat.nativeIf _)
    · obtain ⟨rest, hrest, hpasses⟩ :=
        hplace.passesNative? hnames hbody (hunions type body hbody group hgroup)
      have hmark := hat.nativeIf site.native
      refine ⟨rest, false, ?_, ?_, ?_⟩
      · rw [heq, hmark.path, hrest]
      · rw [hplan]
        exact hpasses
      · rw [heq, hmark.native, Bool.or_false]

/-- A step of the walk takes one segment off the path, and the mark of a native field with it. -/
theorem LeadsTo.markedFrom (hleads : c.LeadsTo value site inner innerSite)
    (hviolation : violation ∈ c.walk inner innerSite) (h : c.MarkedFrom innerSite violation) :
    c.MarkedFrom site violation := by
  cases hleads with
  | @subfield access type name tag body field rule hplan hobject hbody hfield hrule =>
    have hname : field.jsonName = name := CompiledStruct.jsonName_of_field? hfield
    subst hname
    refine h.step rfl ?_ rfl
    rw [hplan]
    exact Schema.step?_field hbody hfield
  | @field access type body field hdeep hplan hobject hbody hfield =>
    have hget := CompiledStruct.field?_of_mem (hnames type body hbody) hfield
    refine h.step rfl ?_ rfl
    rw [hplan]
    exact Schema.step?_field hbody hget
  | @item access element semantics items selector rule tag hplan hitems hrule =>
    obtain ⟨segment, hextend, hsegment⟩ := selectedItem_extend site.path semantics selector items
    refine h.step hextend ?_ (Bool.or_false _).symm
    rw [hplan]
    exact Schema.step?_list hsegment
  | @element access element semantics items item position hdeep hplan hitems hitem =>
    obtain ⟨segment, hextend, hsegment⟩ := semantics.elementPath_extend site.path position inner
    refine h.step hextend ?_ (Bool.or_false _).symm
    rw [hplan]
    exact Schema.step?_list hsegment
  | @entry access key entry members name inner hdeep hplan hmembers hentry =>
    refine h.step rfl ?_ (Bool.or_false _).symm
    rw [hplan]
    rfl
  | @key access key entry members name inner hdeep hplan hmembers hentry hnew hchecked =>
    -- The path of a key is that of its value, but nothing is found further in.
    have hat := isAt_of_mem_walk_scalar (keyValue_isScalar key name) hviolation
    refine ⟨[.key name], false, ?_, ?_, ?_⟩
    · rw [hat.path]
      rfl
    · rw [hplan]
      rfl
    · rw [hat.native, Bool.or_false]
      rfl

/-- The induction is on the value. -/
theorem markedFrom_of_mem_walk (hunions : c.schema.HostsUnions)
    (h : violation ∈ c.walk value site) : c.MarkedFrom site violation := by
  induction value using Value.liesIn_induct generalizing site with
  | step value ih =>
    rcases mem_walk h with ⟨-, hat | hhere | ⟨inner, innerSite, hleads, hinner⟩⟩
    · exact markedFrom_of_isAt hat
    · exact hhere.markedFrom hnames hunions
    · exact hleads.markedFrom hnames hinner (ih inner hleads.liesIn hinner)

end

end Context

/-- If the fields of each struct have different names, a violation is marked exactly when its path
leads through a native field, the last one included. -/
theorem validate_native {types : Universe} {options : Options}
    (hnames : (compile types options).schema.NamesDiffer) {name : String} {type : CompiledType}
    (htype : (compile types options).schema.get? name = some type) (gates : GateView) (new : Value)
    (old : Option Value) :
    ∃ found, validate (compile types options).schema name gates new old = .ok found ∧
      ∀ violation ∈ found,
        (compile types options).schema.passesNative? type.plan violation.path.segments =
          some violation.native := by
  have hknown : (compile types options).schema.contains name = true :=
    Option.isSome_iff_exists.mpr ⟨type, htype⟩
  obtain ⟨type', htype', hvalidate⟩ := Schema.validate_of_contains hknown
  cases htype.symm.trans htype'
  refine ⟨_, hvalidate gates new old, ?_⟩
  intro violation hviolation
  obtain ⟨rest, further, hrest, hpasses, hmark⟩ := Context.markedFrom_of_mem_walk hnames
    (fun _ _ hbody => hostedBy_of_struct? hbody) hviolation
  rw [hrest, hmark]
  exact hpasses

/-- Only rules validate the limits of a job, and how often a step is tried again. -/
def jobTypes : Universe := Catalog.ofList
  [⟨"Job", [], .struct
      [⟨"Limits", none, .named "Limits",
          ["+k8s:declarativeValidationNative", "+k8s:subfield(cores)=+k8s:minimum=2"]⟩,
        ⟨"Steps", none, .slice (.named "Step"),
          ["+k8s:listType=map", "+k8s:listMapKey=name",
            "+k8s:item(name: last)=+k8s:unionMember"]⟩,
        ⟨"Image", none, .scalar .string, ["+k8s:unionMember"]⟩]⟩,
    ⟨"Limits", [], .struct
      [⟨"Cores", none, .scalar .int, ["+k8s:minimum=1"]⟩,
        ⟨"Labels", none, .map (.scalar .string) (.scalar .string),
          ["+k8s:eachKey=+k8s:maxLength=1"]⟩]⟩,
    ⟨"Step", [], .struct
      [⟨"Name", none, .scalar .string, []⟩,
        ⟨"Retries", none, .scalar .int, ["+k8s:declarativeValidationNative", "+k8s:minimum=0"]⟩]⟩]

/-- The job has too few cores, a label with a long key, a negative number of retries, and an image
beside its last step, of which only one may be set. -/
def badJob : Value :=
  .ofMembers
    [("limits", .ofMembers [("cores", .ofInt 1), ("labels", .ofMembers [("ab", .string "")])]),
      ("steps", .array [.ofMembers [("name", .string "last"), ("retries", .ofInt (-1))]]),
      ("image", .string "busybox")]

theorem validate_native_job :
    (compile jobTypes .default).schema.NamesDiffer ∧
      ∃ type, (compile jobTypes .default).schema.get? "Job" = some type ∧
        ∃ found, found.map Violation.native = [true, true, true, false] ∧
          validate (compile jobTypes .default).schema "Job" (fun _ => false) badJob none =
            .ok found ∧
          ∀ violation ∈ found,
            (compile jobTypes .default).schema.passesNative? type.plan violation.path.segments =
              some violation.native := by
  have hall : ((compile jobTypes .default).schema.entries.all fun type =>
      ((compile jobTypes .default).schema.struct? type.name).all fun body =>
        decide (body.fields.map CompiledField.jsonName).Nodup) = true := by
    decide +kernel
  have hnames : (compile jobTypes .default).schema.NamesDiffer := by
    intro name body hbody
    obtain ⟨type, hget, hname, -⟩ := Schema.get?_of_struct? hbody
    have hnodup := List.all_eq_true.mp hall type (Catalog.mem_of_get? hget)
    simpa [hname, hbody] using hnodup
  have hknown : (compile jobTypes .default).schema.contains "Job" = true := by
    decide +kernel
  obtain ⟨type, htype⟩ := Option.isSome_iff_exists.mp hknown
  obtain ⟨found, hfound, hmarks⟩ := validate_native hnames htype (fun _ => false) badJob none
  have hnative : (validate (compile jobTypes .default).schema "Job" (fun _ => false) badJob
      none).toOption.map (List.map Violation.native) = some [true, true, true, false] := by
    decide +kernel
  rw [hfound] at hnative
  exact ⟨hnames, type, htype, found, Option.some.inj hnative, hfound, hmarks⟩

end TaggedSchema
